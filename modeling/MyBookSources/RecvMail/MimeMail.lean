import MyBookSources.RecvMail.BoundaryTags
import MyBookSources.RecvMail.PartAnalysis

/-! # Nested mails

A mail of nested containers as it is written, where its delimiters stand, and what the parser
finds when it looks for boundaries and splits the mail at one of them.
-/

namespace MyBookSources.RecvMail

open StringUtil (find find_eq_none_iff infix_append_cons)
open MailText (crlf)

/-! ## Occurrences of a line -/

theorem IsLine.infix_crlf {line : Bytes} (isLine : IsLine line) {left right : Bytes}
    (within : line <:+: left ++ (crlf ++ right)) : line <:+: left ∨ line <:+: right := by
  rcases infix_append_cons isLine.noCr within with inLeft | behind
  · exact .inl inLeft
  · have cut : line <:+: [] ++ 10 :: right := behind
    rcases infix_append_cons isLine.noLf cut with empty | inRight
    · exact absurd (List.infix_nil.mp empty) isLine.filled
    · exact .inr inRight

theorem IsLine.infix_piece {line : Bytes} (isLine : IsLine line) {leaf : Leaf}
    (within : line <:+: leaf.piece) : line <:+: leaf.text := by
  have split : leaf.piece = [] ++ (crlf ++ (leaf.text ++ (crlf ++ []))) := by
    simp [Leaf.piece]
  rw [split] at within
  rcases isLine.infix_crlf within with empty | within
  · exact absurd (List.infix_nil.mp empty) isLine.filled
  · rcases isLine.infix_crlf within with inText | empty
    · exact inText
    · exact absurd (List.infix_nil.mp empty) isLine.filled

theorem ended_crlf (text : Bytes) : Ended (text ++ crlf) :=
  .inr ⟨text ++ [13], by simp [crlf]⟩

/-! ## Containers -/

/-- A container without its parts: its headers and preamble around the boundary, and what stands
behind its last delimiter. -/
structure Frame where
  opening : Bytes
  boundary : Bytes
  closing : Bytes
  epilogue : Bytes
  isLine : IsLine boundary
  noQuote : 34 ∉ boundary
  noNul : 0 ∉ boundary
  ended : Ended epilogue

namespace Frame

def head (frame : Frame) : Bytes :=
  frame.opening ++ (ascii "boundary=\"" ++ (frame.boundary ++ 34 :: (frame.closing ++ crlf)))

def delimiter (frame : Frame) : Bytes := ascii "--" ++ frame.boundary

def closer (frame : Frame) : Bytes := frame.delimiter ++ ascii "--"

def tail (frame : Frame) : Bytes := frame.closer ++ (crlf ++ frame.epilogue)

theorem tag_infix_head (frame : Frame) : ascii "boundary=" <:+: frame.head := by
  have split : ascii "boundary=\"" = ascii "boundary=" ++ [34] := by decide
  refine ⟨frame.opening, 34 :: (frame.boundary ++ 34 :: (frame.closing ++ crlf)), ?_⟩
  rw [head, split]
  simp

theorem isLine_delimiter (frame : Frame) : IsLine frame.delimiter where
  filled := by simp [delimiter, frame.isLine.filled]
  noCr := by
    have dashes : 13 ∉ ascii "--" := by decide
    simp [delimiter, dashes, frame.isLine.noCr]
  noLf := by
    have dashes : 10 ∉ ascii "--" := by decide
    simp [delimiter, dashes, frame.isLine.noLf]

theorem delimiter_not_dashes (frame : Frame) : ¬ frame.delimiter <:+: ascii "--" := by
  intro within
  have short := within.length_le
  have long := List.length_pos_iff.mpr frame.isLine.filled
  rw [delimiter, List.length_append] at short
  omega

theorem delimiter_infix_closer (frame : Frame) : frame.delimiter <:+: frame.closer :=
  (List.prefix_append _ _).isInfix

theorem boundary_infix_delimiter (frame : Frame) : frame.boundary <:+: frame.delimiter :=
  (List.suffix_append _ _).isInfix

theorem cString_boundary (frame : Frame) : cString frame.boundary = frame.boundary :=
  (cString_eq_iff frame.boundary).mpr frame.noNul

theorem cString_delimiter (frame : Frame) :
    cString (ascii "--" ++ frame.boundary) = frame.delimiter := by
  rw [delimiter, cString_eq_iff, List.mem_append, not_or]
  exact ⟨by decide, frame.noNul⟩

theorem ended_head (frame : Frame) : Ended frame.head := by
  have split : frame.head = frame.opening ++ (ascii "boundary=\"" ++
      (frame.boundary ++ 34 :: frame.closing)) ++ crlf := by
    simp [head]
  rw [split]
  exact ended_crlf _

theorem ended_line (frame : Frame) (leaf : Leaf) : Ended (frame.delimiter ++ leaf.piece) := by
  rw [Leaf.piece, ← List.append_assoc]
  exact ended_crlf _

theorem ended_tail (frame : Frame) : Ended frame.tail := by
  rw [tail, ← List.append_assoc]
  exact (ended_crlf _).append frame.ended

end Frame

/-- The parts of a container, which are leaves or containers with their parts. -/
inductive Parts
  | nil
  | single (leaf : Leaf) (rest : Parts)
  | container (frame : Frame) (inner rest : Parts)

namespace Parts

def text (outer : Frame) : Parts → Bytes
  | nil => []
  | single leaf rest => outer.delimiter ++ (leaf.piece ++ rest.text outer)
  | container frame inner rest =>
      outer.delimiter ++ (crlf ++ (frame.head ++ (inner.text frame ++ (frame.tail ++
        rest.text outer))))

def frames : Parts → List Frame
  | nil => []
  | single _ rest => rest.frames
  | container frame inner rest => frame :: (inner.frames ++ rest.frames)

def leaves : Parts → List Leaf
  | nil => []
  | single leaf rest => leaf :: rest.leaves
  | container _ inner rest => inner.leaves ++ rest.leaves

def own : Parts → List Leaf
  | nil => []
  | single leaf rest => leaf :: rest.own
  | container _ _ rest => rest.own

def nested : Parts → List Leaf
  | nil => []
  | single _ rest => rest.nested
  | container _ inner rest => inner.own ++ inner.nested ++ rest.nested

def pieces : Parts → List Bytes
  | nil => []
  | single leaf rest => leaf.piece :: rest.pieces
  | container frame inner rest =>
      (crlf ++ (frame.head ++ (inner.text frame ++ frame.tail))) :: rest.pieces

theorem frames_inner {frame : Frame} {inner rest : Parts} :
    inner.frames ⊆ (container frame inner rest).frames := fun _ member =>
  List.mem_cons_of_mem _ (List.mem_append_left _ member)

theorem frames_rest {frame : Frame} {inner rest : Parts} :
    rest.frames ⊆ (container frame inner rest).frames := fun _ member =>
  List.mem_cons_of_mem _ (List.mem_append_right _ member)

theorem leaves_inner {frame : Frame} {inner rest : Parts} :
    inner.leaves ⊆ (container frame inner rest).leaves := fun _ member =>
  List.mem_append_left _ member

theorem leaves_rest {frame : Frame} {inner rest : Parts} :
    rest.leaves ⊆ (container frame inner rest).leaves := fun _ member =>
  List.mem_append_right _ member

theorem ended_text (parts : Parts) (outer : Frame) : Ended (parts.text outer) := by
  induction parts generalizing outer with
  | nil => exact .inl rfl
  | single leaf rest induction =>
      have split : (Parts.single leaf rest).text outer =
          outer.delimiter ++ (crlf ++ leaf.text) ++ crlf ++ rest.text outer := by
        simp [text, Leaf.piece]
      rw [split]
      exact (ended_crlf _).append (induction outer)
  | container frame inner rest inInner inRest =>
      have split : (Parts.container frame inner rest).text outer =
          outer.delimiter ++ crlf ++
            (frame.head ++ (inner.text frame ++ (frame.tail ++ rest.text outer))) := by
        simp [text]
      rw [split]
      exact (ended_crlf _).append (frame.ended_head.append ((inInner frame).append
        (frame.ended_tail.append (inRest outer))))

theorem own_nested_perm (parts : Parts) : (parts.own ++ parts.nested).Perm parts.leaves := by
  induction parts with
  | nil => exact List.Perm.refl _
  | single leaf rest induction => exact induction.cons leaf
  | container frame inner rest inInner inRest =>
      rw [own, nested, leaves, List.append_assoc]
      have swapped : (rest.own ++ (inner.own ++ (inner.nested ++ rest.nested))).Perm
          (inner.own ++ inner.nested ++ (rest.own ++ rest.nested)) := by
        rw [← List.append_assoc inner.own]
        exact List.perm_append_comm_assoc _ _ _
      exact swapped.trans (inInner.append inRest)

end Parts

structure Mail where
  root : Frame
  parts : Parts

namespace Mail

def text (mail : Mail) : Bytes := mail.root.head ++ (mail.parts.text mail.root ++ mail.root.tail)

def frames (mail : Mail) : List Frame := mail.root :: mail.parts.frames

def leaves (mail : Mail) : List Leaf := mail.parts.leaves

end Mail

/-! ## Where delimiters stand -/

/-- The boundaries are different, and occur in no leaf. -/
structure Distinct (frames : List Frame) (leaves : List Leaf) : Prop where
  different : (frames.map Frame.boundary).Nodup
  absent : ∀ frame ∈ frames, ∀ leaf ∈ leaves, ¬ frame.boundary <:+: leaf.text

/-- A delimiter occurs only where it stands, and `boundary="` only in front of boundaries. -/
structure Apart (frames : List Frame) (leaves : List Leaf) : Prop where
  heads : ∀ frame ∈ frames, ∀ other ∈ frames, ¬ frame.delimiter <:+: other.head
  epilogues : ∀ frame ∈ frames, ∀ other ∈ frames, ¬ frame.delimiter <:+: other.epilogue
  closers : ∀ frame ∈ frames, ∀ other ∈ frames, frame.boundary ≠ other.boundary →
    ¬ frame.delimiter <:+: other.closer
  openings : ∀ frame ∈ frames, ¬ ascii "boundary=\"" <:+: frame.opening
  closings : ∀ frame ∈ frames, ¬ ascii "boundary=\"" <:+: frame.closing
  untagged : ∀ frame ∈ frames, ¬ ascii "boundary=\"" <:+: frame.epilogue
  texts : ∀ leaf ∈ leaves, ¬ ascii "boundary=\"" <:+: leaf.text

theorem Frame.absent_append (frame : Frame) {left right : Bytes} (ended : Ended left)
    (inLeft : ¬ frame.delimiter <:+: left) (inRight : ¬ frame.delimiter <:+: right) :
    ¬ frame.delimiter <:+: left ++ right := fun within =>
  (ended.infix_append frame.isLine_delimiter.noLf within).elim inLeft inRight

theorem Frame.absent_crlf (frame : Frame) {left right : Bytes}
    (inLeft : ¬ frame.delimiter <:+: left) (inRight : ¬ frame.delimiter <:+: right) :
    ¬ frame.delimiter <:+: left ++ (crlf ++ right) := fun within =>
  (frame.isLine_delimiter.infix_crlf within).elim inLeft inRight

theorem Frame.absent_nil (frame : Frame) : ¬ frame.delimiter <:+: [] := fun within =>
  frame.isLine_delimiter.filled (List.infix_nil.mp within)

section Occurrences

variable {frames : List Frame} {leaves : List Leaf}

theorem Distinct.delimiter_absent (distinct : Distinct frames leaves) {frame : Frame}
    (known : frame ∈ frames) {leaf : Leaf} (member : leaf ∈ leaves) :
    ¬ frame.delimiter <:+: leaf.piece := fun within =>
  distinct.absent frame known leaf member
    (frame.boundary_infix_delimiter.trans (frame.isLine_delimiter.infix_piece within))

theorem Apart.tail (apart : Apart frames leaves) {frame other : Frame} (known : frame ∈ frames)
    (known' : other ∈ frames) (different : frame.boundary ≠ other.boundary) :
    ¬ frame.delimiter <:+: other.tail := by
  apply frame.absent_crlf
  · exact apart.closers frame known other known' different
  · exact apart.epilogues frame known other known'

theorem Apart.delimiter (apart : Apart frames leaves) {frame other : Frame}
    (known : frame ∈ frames) (known' : other ∈ frames)
    (different : frame.boundary ≠ other.boundary) :
    ¬ frame.delimiter <:+: other.delimiter := fun within =>
  apart.closers frame known other known' different (within.trans other.delimiter_infix_closer)

theorem Apart.head_line (apart : Apart frames leaves) {frame outer inside : Frame}
    (known : frame ∈ frames) (outerKnown : outer ∈ frames) (insideKnown : inside ∈ frames)
    (different : frame.boundary ≠ outer.boundary) :
    ¬ frame.delimiter <:+: outer.delimiter ++ (crlf ++ inside.head) := by
  apply frame.absent_crlf
  · exact apart.delimiter known outerKnown different
  · exact apart.heads frame known inside insideKnown

theorem Apart.leaf_line (apart : Apart frames leaves) (distinct : Distinct frames leaves)
    {frame outer : Frame} (known : frame ∈ frames) (outerKnown : outer ∈ frames)
    (different : frame.boundary ≠ outer.boundary) {leaf : Leaf} (member : leaf ∈ leaves) :
    ¬ frame.delimiter <:+: outer.delimiter ++ leaf.piece := by
  have cut : leaf.piece = crlf ++ (leaf.text ++ crlf) := List.append_assoc _ _ _
  rw [cut]
  apply frame.absent_crlf
  · exact apart.delimiter known outerKnown different
  · intro inLeaf
    apply distinct.delimiter_absent known member
    rw [cut]
    exact inLeaf.trans (List.suffix_append _ _).isInfix

theorem Apart.text (apart : Apart frames leaves) (distinct : Distinct frames leaves)
    {frame : Frame} (known : frame ∈ frames) {parts : Parts} {outer : Frame}
    (outerKnown : outer ∈ frames) (framesKnown : parts.frames ⊆ frames)
    (leavesKnown : parts.leaves ⊆ leaves) (other : frame.boundary ≠ outer.boundary)
    (others : ∀ inner ∈ parts.frames, frame.boundary ≠ inner.boundary) :
    ¬ frame.delimiter <:+: parts.text outer := by
  induction parts generalizing outer with
  | nil => exact frame.absent_nil
  | single leaf rest induction =>
      rw [Parts.text, ← List.append_assoc]
      apply frame.absent_append (outer.ended_line leaf)
      · exact apart.leaf_line distinct known outerKnown other (leavesKnown List.mem_cons_self)
      · exact induction outerKnown framesKnown
          (fun leaf member => leavesKnown (List.mem_cons_of_mem _ member)) other others
  | container inside inner rest inInner inRest =>
      have insideKnown : inside ∈ frames := framesKnown List.mem_cons_self
      have otherInside := others inside List.mem_cons_self
      rw [Parts.text]
      apply frame.absent_crlf
      · exact apart.delimiter known outerKnown other
      apply frame.absent_append inside.ended_head
      · exact apart.heads frame known inside insideKnown
      apply frame.absent_append (inner.ended_text inside)
      · exact inInner insideKnown
          (List.Subset.trans Parts.frames_inner framesKnown)
          (List.Subset.trans Parts.leaves_inner leavesKnown) otherInside
          (fun _ member => others _ (Parts.frames_inner member))
      apply frame.absent_append inside.ended_tail
      · exact apart.tail known insideKnown otherInside
      · exact inRest outerKnown
          (List.Subset.trans Parts.frames_rest framesKnown)
          (List.Subset.trans Parts.leaves_rest leavesKnown) other
          (fun _ member => others _ (Parts.frames_rest member))

theorem Apart.inner (apart : Apart frames leaves) (distinct : Distinct frames leaves)
    {frame inside : Frame} (known : frame ∈ frames) (insideKnown : inside ∈ frames)
    {inner : Parts} (innerKnown : inner.frames ⊆ frames) (innerLeaves : inner.leaves ⊆ leaves)
    (other : frame.boundary ≠ inside.boundary)
    (others : ∀ deeper ∈ inner.frames, frame.boundary ≠ deeper.boundary) :
    ¬ frame.delimiter <:+: inner.text inside ++ inside.tail := by
  apply frame.absent_append (inner.ended_text inside)
  · exact apart.text distinct known insideKnown innerKnown innerLeaves other others
  · exact apart.tail known insideKnown other

theorem Apart.pieces (apart : Apart frames leaves) (distinct : Distinct frames leaves)
    {outer : Frame} (known : outer ∈ frames) {parts : Parts} (framesKnown : parts.frames ⊆ frames)
    (leavesKnown : parts.leaves ⊆ leaves)
    (others : ∀ inner ∈ parts.frames, outer.boundary ≠ inner.boundary) :
    ∀ piece ∈ parts.pieces, Ended piece ∧ ¬ outer.delimiter <:+: piece := by
  induction parts with
  | nil => exact fun piece member => absurd member List.not_mem_nil
  | single leaf rest induction =>
      intro piece member
      rcases List.mem_cons.mp member with rfl | inRest
      · exact ⟨ended_crlf _, distinct.delimiter_absent known (leavesKnown List.mem_cons_self)⟩
      · exact induction framesKnown (fun _ member => leavesKnown (List.mem_cons_of_mem _ member))
          others piece inRest
  | container inside inner rest _ inRest =>
      intro piece member
      have insideKnown : inside ∈ frames := framesKnown List.mem_cons_self
      have other := others inside List.mem_cons_self
      rcases List.mem_cons.mp member with rfl | inRestPieces
      · constructor
        · exact (ended_crlf []).append (inside.ended_head.append
            ((inner.ended_text inside).append inside.ended_tail))
        · apply outer.absent_crlf outer.absent_nil
          apply outer.absent_append inside.ended_head
          · exact apart.heads outer known inside insideKnown
          · exact apart.inner distinct known insideKnown
              (List.Subset.trans Parts.frames_inner framesKnown)
              (List.Subset.trans Parts.leaves_inner leavesKnown) other
              (fun _ member => others _ (Parts.frames_inner member))
      · exact inRest
          (List.Subset.trans Parts.frames_rest framesKnown)
          (List.Subset.trans Parts.leaves_rest leavesKnown)
          (fun _ member => others _ (Parts.frames_rest member))
          piece inRestPieces

end Occurrences

/-- The mail split at the delimiter of a container: what is in front of its parts, the parts,
and what stands behind them. -/
theorem splitAll_parts {outer : Frame} {parts : Parts}
    (clean : ∀ piece ∈ parts.pieces, Ended piece ∧ ¬ outer.delimiter <:+: piece) {front : Bytes}
    (ended : Ended front) (inFront : ¬ outer.delimiter <:+: front) {last : Bytes}
    (inLast : ¬ outer.delimiter <:+: last) :
    splitAll outer.delimiter (front ++ (parts.text outer ++ (outer.delimiter ++ last))) =
      front :: (parts.pieces ++ [last]) := by
  have filled := outer.isLine_delimiter.filled
  have noLf := outer.isLine_delimiter.noLf
  induction parts generalizing front with
  | nil =>
      rw [Parts.text, List.nil_append, splitAll_delimiter filled noLf ended inFront,
        splitAll_of_clean inLast]
      rfl
  | single leaf rest induction =>
      have own := clean leaf.piece List.mem_cons_self
      rw [Parts.text, List.append_assoc, splitAll_delimiter filled noLf ended inFront,
        List.append_assoc,
        induction (fun piece member => clean piece (List.mem_cons_of_mem _ member)) own.1 own.2]
      rfl
  | container inside inner rest _ inRest =>
      have own := clean _ List.mem_cons_self
      have split : (Parts.container inside inner rest).text outer =
          outer.delimiter ++ (crlf ++ (inside.head ++ (inner.text inside ++ inside.tail)) ++
            rest.text outer) := by
        simp [Parts.text]
      rw [split, List.append_assoc, splitAll_delimiter filled noLf ended inFront,
        List.append_assoc,
        inRest (fun piece member => clean piece (List.mem_cons_of_mem _ member)) own.1 own.2]
      rfl

/-! ## The boundaries of a mail -/

theorem isLine_tag : IsLine (ascii "boundary=\"") := ⟨by decide, by decide, by decide⟩

theorem Frame.untagged_delimiter (frame : Frame) :
    ¬ ascii "boundary=\"" <:+: frame.delimiter := by
  intro within
  have quote : 34 ∈ frame.delimiter := within.subset (by decide)
  rcases List.mem_append.mp quote with inDashes | inBoundary
  · exact absurd inDashes (by decide)
  · exact frame.noQuote inBoundary

theorem Frame.untagged_closer (frame : Frame) : ¬ ascii "boundary=\"" <:+: frame.closer := by
  intro within
  have quote : 34 ∈ frame.closer := within.subset (by decide)
  simp only [closer, delimiter, List.mem_append, frame.noQuote, or_false] at quote
  exact absurd quote (by decide)

theorem Frame.head_append (frame : Frame) (rest : Bytes) :
    frame.head ++ rest = frame.opening ++ (ascii "boundary=\"" ++
      (frame.boundary ++ 34 :: (frame.closing ++ crlf ++ rest))) := by
  simp [head]

theorem untagged_append {left right : Bytes} (ended : Ended left)
    (inLeft : ¬ ascii "boundary=\"" <:+: left) (inRight : ¬ ascii "boundary=\"" <:+: right) :
    ¬ ascii "boundary=\"" <:+: left ++ right := fun within =>
  (ended.infix_append isLine_tag.noLf within).elim inLeft inRight

theorem untagged_crlf {left right : Bytes} (inLeft : ¬ ascii "boundary=\"" <:+: left)
    (inRight : ¬ ascii "boundary=\"" <:+: right) :
    ¬ ascii "boundary=\"" <:+: left ++ (crlf ++ right) := fun within =>
  (isLine_tag.infix_crlf within).elim inLeft inRight

theorem Apart.untagged_tail {frames : List Frame} {leaves : List Leaf}
    (apart : Apart frames leaves) {frame : Frame} (known : frame ∈ frames) :
    ¬ ascii "boundary=\"" <:+: frame.tail :=
  untagged_crlf frame.untagged_closer (apart.untagged frame known)

theorem Apart.scanTags_parts {frames : List Frame} {leaves : List Leaf}
    (apart : Apart frames leaves) (parts : Parts) (framesKnown : parts.frames ⊆ frames)
    (leavesKnown : parts.leaves ⊆ leaves) (outer : Frame) {front : Bytes} (ended : Ended front)
    (untagged : ¬ ascii "boundary=\"" <:+: front) :
    ∃ front', Ended front' ∧ ¬ ascii "boundary=\"" <:+: front' ∧ ∀ rest,
      MailHelper.scanTags (front ++ (parts.text outer ++ rest)) 0 =
        (MailHelper.scanTags (front' ++ rest) 0).map
          (parts.frames.map Frame.boundary ++ ·) := by
  induction parts generalizing front outer with
  | nil => exact ⟨front, ended, untagged, fun rest => by simp [Parts.text, Parts.frames]⟩
  | single leaf rest induction =>
      have noTag : ¬ ascii "boundary=\"" <:+: leaf.piece := fun within =>
        apart.texts leaf (leavesKnown List.mem_cons_self) (isLine_tag.infix_piece within)
      have between : ¬ ascii "boundary=\"" <:+: outer.delimiter ++ leaf.piece := by
        have split : leaf.piece = crlf ++ (leaf.text ++ crlf) := List.append_assoc _ _ _
        rw [split] at noTag ⊢
        exact untagged_crlf outer.untagged_delimiter fun within =>
          noTag (within.trans (List.suffix_append _ _).isInfix)
      rcases induction framesKnown (fun _ member => leavesKnown (List.mem_cons_of_mem _ member))
        outer (ended.append (outer.ended_line leaf)) (untagged_append ended untagged between) with
        ⟨front', ended', untagged', tags⟩
      refine ⟨front', ended', untagged', fun behind => ?_⟩
      have further := tags behind
      rw [Parts.text, Parts.frames, ← further]
      simp only [List.append_assoc]
  | container frame inner rest inInner inRest =>
      have known : frame ∈ frames := framesKnown List.mem_cons_self
      have opening : ¬ ascii "boundary=\"" <:+:
          front ++ (outer.delimiter ++ (crlf ++ frame.opening)) :=
        untagged_append ended untagged
          (untagged_crlf outer.untagged_delimiter (apart.openings frame known))
      have closing : ¬ ascii "boundary=\"" <:+: frame.closing ++ crlf := by
        rw [← List.append_nil (frame.closing ++ crlf), List.append_assoc]
        exact untagged_crlf (apart.closings frame known) fun within =>
          isLine_tag.filled (List.infix_nil.mp within)
      rcases inInner (List.Subset.trans Parts.frames_inner framesKnown)
        (List.Subset.trans Parts.leaves_inner leavesKnown) frame
        (ended_crlf frame.closing) closing with ⟨front₁, ended₁, untagged₁, tags₁⟩
      rcases inRest (List.Subset.trans Parts.frames_rest framesKnown)
        (List.Subset.trans Parts.leaves_rest leavesKnown) outer
        (ended₁.append frame.ended_tail)
        (untagged_append ended₁ untagged₁ (apart.untagged_tail known)) with
        ⟨front₂, ended₂, untagged₂, tags₂⟩
      refine ⟨front₂, ended₂, untagged₂, fun behind => ?_⟩
      have split : front ++ ((Parts.container frame inner rest).text outer ++ behind) =
          front ++ (outer.delimiter ++ (crlf ++ frame.opening)) ++ (ascii "boundary=\"" ++
            (frame.boundary ++ 34 :: (frame.closing ++ crlf ++ (inner.text frame ++
              (frame.tail ++ (rest.text outer ++ behind)))))) := by
        simp [Parts.text, Frame.head]
      have further := tags₂ behind
      rw [List.append_assoc] at further
      rw [split, MailHelper.scanTags_cons opening frame.noQuote, tags₁, further,
        Option.map_map, Option.map_map]
      congr 1
      funext tags
      simp [Parts.frames]

/-- The parser finds every boundary, in the order of the mail. -/
theorem Apart.boundaryTags {mail : Mail} (held : MailHelper.Held mail.text)
    (apart : Apart mail.frames mail.leaves) :
    MailHelper.boundaryTags mail.text = some (mail.frames.map Frame.boundary) := by
  have known : mail.root ∈ mail.frames := List.mem_cons_self
  have closing : ¬ ascii "boundary=\"" <:+: mail.root.closing ++ crlf := by
    rw [← List.append_nil (mail.root.closing ++ crlf), List.append_assoc]
    exact untagged_crlf (apart.closings _ known) fun within =>
      isLine_tag.filled (List.infix_nil.mp within)
  rcases apart.scanTags_parts mail.parts (List.subset_cons_self _ _) (List.Subset.refl _)
    mail.root (ended_crlf mail.root.closing) closing with ⟨front, ended, untagged, tags⟩
  have behind : findFrom (ascii "boundary=\"") (front ++ mail.root.tail) 0 = none := by
    have absent := (find_eq_none_iff _ _).mpr
      (untagged_append ended untagged (apart.untagged_tail known))
    rw [findFrom, if_neg (Nat.not_lt_zero _), List.drop_zero, absent]
    rfl
  rw [MailHelper.boundaryTags_eq held, Mail.text, Frame.head_append,
    MailHelper.scanTags_cons (apart.openings _ known) mail.root.noQuote, tags,
    MailHelper.scanTags_none behind]
  simp [Mail.frames]

end MyBookSources.RecvMail
