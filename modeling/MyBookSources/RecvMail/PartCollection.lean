import MyBookSources.RecvMail.MimeMail

/-! # Collecting the parts of a mail

The parser splits the mail once for every boundary. Each split gives the leaves of one
container; all splits together give every leaf once, if delimiters occur only where they stand.
-/

namespace MyBookSources.RecvMail

open StringUtil (find)
open MailText (crlf)

/-! ## Recording -/

def Leaf.unmarked (leaf : Leaf) : Bool := !contains leaf.text (ascii "boundary=")

namespace MailHelper

def collect (platform : Platform) (helper : MailHelper) (leaves : List Leaf) : MailHelper :=
  ((leaves.filter Leaf.unmarked).filterMap (Leaf.result platform)).foldl (record platform) helper

theorem collect_append (platform : Platform) (helper : MailHelper) (left right : List Leaf) :
    helper.collect platform (left ++ right) =
      (helper.collect platform left).collect platform right := by
  simp only [collect, List.filter_append, List.filterMap_append, List.foldl_append]

theorem collect_unmarked {platform : Platform} {helper : MailHelper} {leaf : Leaf}
    (kept : leaf.unmarked = true) {part : PartResult} (result : leaf.result platform = some part)
    (leaves : List Leaf) :
    helper.collect platform (leaf :: leaves) =
      (helper.record platform part).collect platform leaves := by
  rw [collect, List.filter_cons_of_pos kept, List.filterMap_cons_some result, List.foldl_cons,
    collect]

theorem collect_marked {platform : Platform} {helper : MailHelper} {leaf : Leaf}
    (skipped : leaf.unmarked = false) (leaves : List Leaf) :
    helper.collect platform (leaf :: leaves) = helper.collect platform leaves := by
  have notKept : ¬ leaf.unmarked = true := by
    simp [skipped]
  rw [collect, List.filter_cons_of_neg notKept, collect]

theorem record_fixed (platform : Platform) (helper : MailHelper) (part : PartResult) :
    (helper.record platform part).vecBoundary = helper.vecBoundary ∧
      (helper.record platform part).strMail = helper.strMail := by
  rw [record]
  split
  · exact ⟨rfl, rfl⟩
  · cases part.lType <;> exact ⟨rfl, rfl⟩

theorem collect_fixed (platform : Platform) (helper : MailHelper) (leaves : List Leaf) :
    (helper.collect platform leaves).vecBoundary = helper.vecBoundary ∧
      (helper.collect platform leaves).strMail = helper.strMail := by
  rw [collect]
  induction (leaves.filter Leaf.unmarked).filterMap (Leaf.result platform)
    generalizing helper with
  | nil => exact ⟨rfl, rfl⟩
  | cons part parts induction =>
      rw [List.foldl_cons]
      rcases induction (helper.record platform part) with ⟨boundaries, mail⟩
      rcases record_fixed platform helper part with ⟨sameBoundaries, sameMail⟩
      exact ⟨boundaries.trans sameBoundaries, mail.trans sameMail⟩

theorem foldlM_pieces_filter (platform : Platform) (strBoundary : Bytes) (items : List Bytes)
    (helper : MailHelper) :
    (items.filter fun item => !item.isEmpty).foldlM (analyzePiece platform strBoundary) helper =
      items.foldlM (analyzePiece platform strBoundary) helper := by
  induction items generalizing helper with
  | nil => rfl
  | cons item items induction =>
      cases item with
      | nil =>
          have skipped : helper.analyzePiece platform strBoundary [] = some helper := by
            simp [analyzePiece, isPart]
          rw [List.foldlM_cons, skipped]
          exact induction helper
      | cons byte item =>
          rw [List.filter_cons_of_pos (by rfl), List.foldlM_cons, List.foldlM_cons]
          congr 1
          funext helper
          exact induction helper

/-! ## Pieces that are parts -/

def Found (helper : MailHelper) (frames : List Frame) : Prop :=
  helper.vecBoundary = frames.map Frame.boundary

theorem isPart_of_boundary (helper : MailHelper) (strBoundary : Bytes) {strItem : Bytes}
    (within : ascii "boundary=" <:+: strItem) : helper.isPart strBoundary strItem = false := by
  rw [isPart, (contains_iff _ _).mpr within]
  simp


theorem isPart_of_other (helper : MailHelper) {strBoundary other strItem : Bytes}
    (known : other ∈ helper.vecBoundary) (different : other ≠ cString strBoundary)
    (within : other <:+: strItem) : helper.isPart strBoundary strItem = false := by
  have exists_other : helper.isExistBoundary strItem strBoundary = true := by
    rw [isExistBoundary, List.any_eq_true]
    refine ⟨other, known, ?_⟩
    rw [(contains_iff _ _).mpr within, bne_iff_ne.mpr different]
    rfl
  rw [isPart, exists_other]
  simp

theorem isPart_of_untyped (helper : MailHelper) (strBoundary : Bytes) {strItem : Bytes}
    (untyped : ¬ ascii "Content-Type" <:+: strItem) :
    helper.isPart strBoundary strItem = false := by
  have absent : contains strItem (ascii "Content-Type") = false := by
    rwa [← Bool.not_eq_true, contains_iff]
  rw [isPart, absent]
  simp

theorem isPart_piece {helper : MailHelper} {frames : List Frame} {leaves : List Leaf}
    (found : helper.Found frames) (distinct : Distinct frames leaves) {leaf : Leaf}
    (member : leaf ∈ leaves) (readable : leaf.Readable) (strBoundary : Bytes) :
    helper.isPart strBoundary leaf.piece = leaf.unmarked := by
  have filled : leaf.piece.isEmpty = false := rfl
  have marked : contains leaf.piece (ascii "boundary=") =
      contains leaf.text (ascii "boundary=") := by
    have isLine : IsLine (ascii "boundary=") := ⟨by decide, by decide, by decide⟩
    rw [Bool.eq_iff_iff, contains_iff, contains_iff]
    refine ⟨isLine.infix_piece, fun within => within.trans ?_⟩
    exact ⟨crlf, crlf, rfl⟩
  have typed : contains leaf.piece (ascii "Content-Type") = true := by
    have front : ascii "Content-Type" <:+: ascii "Content-Type:" := by decide
    rw [contains_iff]
    refine (front.trans readable.tagged).trans ⟨crlf, crlf ++ leaf.body ++ crlf, ?_⟩
    simp [Leaf.piece, Leaf.text]
  have alone : helper.isExistBoundary leaf.piece strBoundary = false := by
    rw [isExistBoundary, found, List.any_eq_false]
    intro boundary listed
    rcases List.mem_map.mp listed with ⟨frame, known, rfl⟩
    have absent : contains leaf.piece frame.boundary = false := by
      rw [← Bool.not_eq_true, contains_iff]
      exact fun within => distinct.absent frame known leaf member (frame.isLine.infix_piece within)
    simp [absent]
  rw [isPart, filled, marked, typed, alone, Leaf.unmarked]
  simp

theorem foldlM_pieces {platform : Platform} {frames : List Frame} {leaves : List Leaf}
    (distinct : Distinct frames leaves) {parts : Parts} (leavesKnown : parts.leaves ⊆ leaves)
    (readable : ∀ leaf ∈ parts.leaves, leaf.Readable ∧ (leaf.result platform).isSome = true)
    (strBoundary : Bytes) {helper : MailHelper} (found : helper.Found frames) :
    parts.pieces.foldlM (analyzePiece platform strBoundary) helper =
      some (helper.collect platform parts.own) := by
  induction parts generalizing helper with
  | nil => rfl
  | single leaf rest induction =>
      have own := readable leaf List.mem_cons_self
      have isPart := isPart_piece found distinct (leavesKnown List.mem_cons_self) own.1 strBoundary
      have restKnown : rest.leaves ⊆ leaves := fun _ member =>
        leavesKnown (List.mem_cons_of_mem _ member)
      have restReadable : ∀ leaf ∈ rest.leaves, leaf.Readable ∧
          (leaf.result platform).isSome = true := fun leaf member =>
        readable leaf (List.mem_cons_of_mem _ member)
      rw [Parts.pieces, List.foldlM_cons, analyzePiece, isPart, Parts.own]
      cases kept : leaf.unmarked with
      | true =>
          rcases Option.isSome_iff_exists.mp own.2 with ⟨part, result⟩
          have found' : (helper.record platform part).Found frames :=
            (record_fixed platform helper part).1.trans found
          rw [if_pos rfl, Leaf.analyzePart_piece own.1 result, Option.map_some,
            collect_unmarked kept result rest.own]
          exact induction restKnown restReadable found'
      | false =>
          rw [if_neg (by decide), collect_marked kept rest.own]
          exact induction restKnown restReadable found
  | container inside inner rest _ induction =>
      have tagged : ascii "boundary=" <:+:
          crlf ++ (inside.head ++ (inner.text inside ++ inside.tail)) :=
        inside.tag_infix_head.trans ⟨crlf, inner.text inside ++ inside.tail, by simp⟩
      rw [Parts.pieces, List.foldlM_cons, analyzePiece, isPart_of_boundary helper _ tagged]
      exact induction (List.Subset.trans Parts.leaves_rest leavesKnown)
        (fun leaf member => readable leaf (Parts.leaves_rest member)) found

/-! ## One split after the other -/

section Frames

variable {platform : Platform} {frames : List Frame} {leaves : List Leaf}

theorem analyzeBoundary_frame (apart : Apart frames leaves) (distinct : Distinct frames leaves)
    (readable : ∀ leaf ∈ leaves, leaf.Readable ∧ (leaf.result platform).isSome = true)
    {frame : Frame} (known : frame ∈ frames) {parts : Parts}
    (framesKnown : parts.frames ⊆ frames) (leavesKnown : parts.leaves ⊆ leaves)
    (others : ∀ inner ∈ parts.frames, frame.boundary ≠ inner.boundary) {helper : MailHelper}
    (found : helper.Found frames) {front last : Bytes}
    (mail : helper.strMail = front ++ (parts.text frame ++ (frame.delimiter ++ last)))
    (ended : Ended front) (inFront : ¬ frame.delimiter <:+: front)
    (inLast : ¬ frame.delimiter <:+: last) (tagged : ascii "boundary=" <:+: front)
    (skipped : ∀ helper : MailHelper, helper.Found frames →
      helper.isPart frame.boundary last = false) :
    helper.analyzeBoundary platform frame.boundary =
      some (helper.collect platform parts.own) := by
  have pieces := foldlM_pieces distinct leavesKnown
    (fun leaf member => readable leaf (leavesKnown member)) frame.boundary found
  have found' : (helper.collect platform parts.own).Found frames :=
    (collect_fixed platform helper parts.own).1.trans found
  rw [analyzeBoundary, frame.cString_delimiter, splitString, foldlM_pieces_filter, mail,
    splitAll_parts (apart.pieces distinct known framesKnown leavesKnown others) ended inFront
      inLast, List.foldlM_cons, analyzePiece, isPart_of_boundary helper _ tagged]
  change (parts.pieces ++ [last]).foldlM (analyzePiece platform frame.boundary) helper = _
  rw [List.foldlM_append, pieces]
  change [last].foldlM (analyzePiece platform frame.boundary) _ = _
  rw [List.foldlM_cons, analyzePiece, skipped _ found']
  rfl

theorem isPart_behind {helper : MailHelper} (found : helper.Found frames) {frame outer : Frame}
    (outerKnown : outer ∈ frames) (different : outer.boundary ≠ frame.boundary) {last : Bytes}
    (within : outer.delimiter <:+: last) : helper.isPart frame.boundary last = false := by
  have known : outer.boundary ∈ helper.vecBoundary := by
    rw [found]
    exact List.mem_map_of_mem outerKnown
  have other : outer.boundary ≠ cString frame.boundary := by
    rwa [frame.cString_boundary]
  exact helper.isPart_of_other known other (outer.boundary_infix_delimiter.trans within)

/-- A delimiter is not in what stands in front of the parts of an inner container, if it is
neither in front of the container nor the outer one. -/
theorem absent_opened (apart : Apart frames leaves) {outer inside frame : Frame}
    (known : outer ∈ frames) (insideKnown : inside ∈ frames) (frameKnown : frame ∈ frames)
    (other : frame.boundary ≠ outer.boundary) {front : Bytes} (ended : Ended front)
    (before : ¬ frame.delimiter <:+: front) :
    ¬ frame.delimiter <:+: front ++ (outer.delimiter ++ (crlf ++ inside.head)) := by
  apply frame.absent_append ended before
  exact apart.head_line frameKnown known insideKnown other

theorem absent_behind (apart : Apart frames leaves) (distinct : Distinct frames leaves)
    {outer frame : Frame} (known : outer ∈ frames) (frameKnown : frame ∈ frames) {rest : Parts}
    (restKnown : rest.frames ⊆ frames) (restLeaves : rest.leaves ⊆ leaves)
    (other : frame.boundary ≠ outer.boundary)
    (others : ∀ inner ∈ rest.frames, frame.boundary ≠ inner.boundary) {last : Bytes}
    (behind : ¬ frame.delimiter <:+: outer.delimiter ++ last) :
    ¬ frame.delimiter <:+: rest.text outer ++ (outer.delimiter ++ last) := by
  apply frame.absent_append (rest.ended_text outer)
  · exact apart.text distinct frameKnown known restKnown restLeaves other others
  · exact behind

theorem foldlM_frames (apart : Apart frames leaves) (distinct : Distinct frames leaves)
    (readable : ∀ leaf ∈ leaves, leaf.Readable ∧ (leaf.result platform).isSome = true)
    {outer : Frame} (known : outer ∈ frames) (parts : Parts)
    (framesKnown : parts.frames ⊆ frames) (leavesKnown : parts.leaves ⊆ leaves)
    (different : (outer :: parts.frames).Pairwise fun left right =>
      left.boundary ≠ right.boundary) {helper : MailHelper}
    (found : helper.Found frames) {front last : Bytes}
    (mail : helper.strMail = front ++ (parts.text outer ++ (outer.delimiter ++ last)))
    (ended : Ended front) (inFront : ∀ inner ∈ parts.frames, ¬ inner.delimiter <:+: front)
    (inLast : ∀ inner ∈ parts.frames, ¬ inner.delimiter <:+: outer.delimiter ++ last) :
    (parts.frames.map Frame.boundary).foldlM
        (fun helper boundary => helper.analyzeBoundary platform boundary) helper =
      some (helper.collect platform parts.nested) := by
  induction parts generalizing outer helper front last with
  | nil => rfl
  | single leaf rest induction =>
      have split : helper.strMail = (front ++ (outer.delimiter ++ leaf.piece)) ++
          (rest.text outer ++ (outer.delimiter ++ last)) := by
        rw [mail]
        simp [Parts.text]
      have inFront' : ∀ inner ∈ rest.frames,
          ¬ inner.delimiter <:+: front ++ (outer.delimiter ++ leaf.piece) := by
        intro inner member
        have other : inner.boundary ≠ outer.boundary :=
          ((List.pairwise_cons.mp different).1 inner member).symm
        apply inner.absent_append ended (inFront inner member)
        exact apart.leaf_line distinct (framesKnown member) known other
          (leavesKnown List.mem_cons_self)
      exact induction known framesKnown
        (fun _ member => leavesKnown (List.mem_cons_of_mem _ member)) different found split
        (ended.append (outer.ended_line leaf)) inFront' inLast
  | container inside inner rest inInner inRest =>
      have insideKnown : inside ∈ frames := framesKnown List.mem_cons_self
      have innerKnown : inner.frames ⊆ frames := List.Subset.trans Parts.frames_inner framesKnown
      have restKnown : rest.frames ⊆ frames := List.Subset.trans Parts.frames_rest framesKnown
      have innerLeaves : inner.leaves ⊆ leaves := List.Subset.trans Parts.leaves_inner leavesKnown
      have restLeaves : rest.leaves ⊆ leaves := List.Subset.trans Parts.leaves_rest leavesKnown
      rw [Parts.frames, List.pairwise_cons, List.pairwise_cons, List.pairwise_append] at different
      rcases different with ⟨outerNew, insideNew, innerDifferent, restDifferent, innerRest⟩
      have outerInside : outer.boundary ≠ inside.boundary := outerNew inside List.mem_cons_self
      have outerInner : ∀ frame ∈ inner.frames, outer.boundary ≠ frame.boundary :=
        fun frame member => outerNew frame (Parts.frames_inner member)
      have outerRest : ∀ frame ∈ rest.frames, outer.boundary ≠ frame.boundary :=
        fun frame member => outerNew frame (Parts.frames_rest member)
      have insideInner : ∀ frame ∈ inner.frames, inside.boundary ≠ frame.boundary :=
        fun frame member => insideNew frame (List.mem_append_left _ member)
      have insideRest : ∀ frame ∈ rest.frames, inside.boundary ≠ frame.boundary :=
        fun frame member => insideNew frame (List.mem_append_right _ member)
      -- what every delimiter but the outer one is apart from
      have front_clean {frame : Frame} (known' : frame ∈ frames)
          (other : frame.boundary ≠ outer.boundary) (before : ¬ frame.delimiter <:+: front) :=
        absent_opened apart known insideKnown known' other ended before
      have behind_clean {frame : Frame} (known' : frame ∈ frames)
          (other : frame.boundary ≠ outer.boundary)
          (others : ∀ frame' ∈ rest.frames, frame.boundary ≠ frame'.boundary)
          (behind : ¬ frame.delimiter <:+: outer.delimiter ++ last) :=
        absent_behind apart distinct known known' restKnown restLeaves other others behind
      generalize front_eq : front ++ (outer.delimiter ++ (crlf ++ inside.head)) = front₁
        at front_clean
      generalize last_eq : ascii "--" ++ (crlf ++ (inside.epilogue ++ (rest.text outer ++
        (outer.delimiter ++ last)))) = last₁
      have mail₁ : helper.strMail =
          front₁ ++ (inner.text inside ++ (inside.delimiter ++ last₁)) := by
        rw [mail, ← front_eq, ← last_eq]
        simp [Parts.text, Frame.tail, Frame.closer]
      have ended₁ : Ended front₁ := by
        rw [← front_eq, ← List.append_assoc outer.delimiter]
        exact ended.append ((ended_crlf _).append inside.ended_head)
      have behind_split : inside.delimiter ++ last₁ =
          inside.tail ++ (rest.text outer ++ (outer.delimiter ++ last)) := by
        rw [← last_eq]
        simp [Frame.tail, Frame.closer]
      have inLast₁ : ∀ frame ∈ inner.frames, ¬ frame.delimiter <:+: inside.delimiter ++ last₁ := by
        intro frame member
        have known' := innerKnown member
        rw [behind_split]
        apply frame.absent_append inside.ended_tail
        · exact apart.tail known' insideKnown (insideInner frame member).symm
        · exact behind_clean known' (outerInner frame member).symm (innerRest frame member)
            (inLast frame (Parts.frames_inner member))
      have insideLast : ¬ inside.delimiter <:+: last₁ := by
        rw [← last_eq]
        apply inside.absent_crlf inside.delimiter_not_dashes
        apply inside.absent_append inside.ended
        · exact apart.epilogues inside insideKnown inside insideKnown
        · exact behind_clean insideKnown outerInside.symm insideRest
            (inLast inside List.mem_cons_self)
      have outerBehind : outer.delimiter <:+: last₁ := by
        rw [← last_eq]
        exact ⟨ascii "--" ++ (crlf ++ (inside.epilogue ++ rest.text outer)), last, by simp⟩
      have tagged : ascii "boundary=" <:+: front₁ := by
        rw [← front_eq]
        exact inside.tag_infix_head.trans
          ⟨front ++ (outer.delimiter ++ crlf), [], by simp⟩
      have own := analyzeBoundary_frame apart distinct readable insideKnown innerKnown innerLeaves
        insideInner found mail₁ ended₁
        (front_clean insideKnown outerInside.symm (inFront inside List.mem_cons_self)) insideLast
        tagged (fun helper found => isPart_behind found known outerInside outerBehind)
      have fixed₁ := collect_fixed platform helper inner.own
      have inside_all := inInner insideKnown innerKnown innerLeaves
        (List.pairwise_cons.mpr ⟨insideInner, innerDifferent⟩) (fixed₁.1.trans found)
        (fixed₁.2.trans mail₁) ended₁
        (fun frame member => front_clean (innerKnown member) (outerInner frame member).symm
          (inFront frame (Parts.frames_inner member))) inLast₁
      have fixed₂ := collect_fixed platform (helper.collect platform inner.own) inner.nested
      have mail₂ : helper.strMail = (front₁ ++ (inner.text inside ++ inside.tail)) ++
          (rest.text outer ++ (outer.delimiter ++ last)) := by
        rw [mail₁, behind_split]
        simp
      have front₂_clean : ∀ frame ∈ rest.frames,
          ¬ frame.delimiter <:+: front₁ ++ (inner.text inside ++ inside.tail) := by
        intro frame member
        have known' := restKnown member
        apply frame.absent_append ended₁
        · exact front_clean known' (outerRest frame member).symm
            (inFront frame (Parts.frames_rest member))
        · exact apart.inner distinct known' insideKnown innerKnown innerLeaves
            (insideRest frame member).symm
            (fun frame' member' => (innerRest frame' member' frame member).symm)
      have rest_all := inRest known restKnown restLeaves
        (List.pairwise_cons.mpr ⟨outerRest, restDifferent⟩)
        (fixed₂.1.trans (fixed₁.1.trans found)) (fixed₂.2.trans (fixed₁.2.trans mail₂))
        (ended₁.append ((inner.ended_text inside).append inside.ended_tail)) front₂_clean
        (fun frame member => inLast frame (Parts.frames_rest member))
      rw [Parts.frames, List.map_cons, List.map_append, List.foldlM_cons, own]
      change (inner.frames.map Frame.boundary ++ rest.frames.map Frame.boundary).foldlM _ _ = _
      rw [List.foldlM_append, inside_all]
      change (rest.frames.map Frame.boundary).foldlM _ _ = _
      rw [rest_all, Parts.nested, collect_append, collect_append]

end Frames

/-! ## The whole mail -/

/-- The state after a mail, in which the leaves are recorded container by container. -/
def collected (platform : Platform) (mail : Mail) (helper : MailHelper) : MailHelper :=
  { helper with
    strMail := mail.text
    vecBoundary := mail.frames.map Frame.boundary }.collect platform
      (mail.parts.own ++ mail.parts.nested)

theorem analyzeBody_mail {platform : Platform} {mail : Mail} (held : Held mail.text)
    (apart : Apart mail.frames mail.leaves) (distinct : Distinct mail.frames mail.leaves)
    (readable : ∀ leaf ∈ mail.leaves, leaf.Readable ∧ (leaf.result platform).isSome = true)
    (untyped : ¬ ascii "Content-Type" <:+: mail.root.epilogue) (helper : MailHelper) :
    analyzeBody platform mail.text helper =
      some (true, (collected platform mail helper).writtenFiles platform,
        collected platform mail helper) := by
  have known : mail.root ∈ mail.frames := List.mem_cons_self
  have framesKnown : mail.parts.frames ⊆ mail.frames := List.subset_cons_self _ _
  have others : ∀ inner ∈ mail.parts.frames, mail.root.boundary ≠ inner.boundary :=
    fun inner member same => (List.nodup_cons.mp distinct.different).1
      (by
        rw [same]
        exact List.mem_map_of_mem member)
  have filled : mail.text.isEmpty = false := by
    simp [Mail.text, Frame.head]
  generalize start_eq : { helper with
    strMail := mail.text
    vecBoundary := mail.frames.map Frame.boundary } = start
  have found : start.Found mail.frames := by
    rw [← start_eq]
    rfl
  have split : start.strMail = mail.root.head ++ (mail.parts.text mail.root ++
      (mail.root.delimiter ++ (ascii "--" ++ (crlf ++ mail.root.epilogue)))) := by
    rw [← start_eq]
    simp [Mail.text, Frame.tail, Frame.closer]
  have inLast : ∀ frame ∈ mail.frames,
      ¬ frame.delimiter <:+: ascii "--" ++ (crlf ++ mail.root.epilogue) := by
    intro frame member
    apply frame.absent_crlf frame.delimiter_not_dashes
    exact apart.epilogues frame member mail.root known
  have lastUntyped : ¬ ascii "Content-Type" <:+: ascii "--" ++ (crlf ++ mail.root.epilogue) := by
    have isLine : IsLine (ascii "Content-Type") := ⟨by decide, by decide, by decide⟩
    intro within
    rcases isLine.infix_crlf within with inDashes | inEpilogue
    · exact absurd inDashes (by decide)
    · exact untyped inEpilogue
  have first := analyzeBoundary_frame apart distinct readable known framesKnown
    (List.Subset.refl _) others found split mail.root.ended_head
    (apart.heads _ known _ known) (inLast _ known) mail.root.tag_infix_head
    (fun helper _ => helper.isPart_of_untyped _ lastUntyped)
  have fixed := collect_fixed platform start mail.parts.own
  have behind : ∀ inner ∈ mail.parts.frames, ¬ inner.delimiter <:+:
      mail.root.delimiter ++ (ascii "--" ++ (crlf ++ mail.root.epilogue)) := by
    intro inner member
    have tail := apart.tail (framesKnown member) known (others inner member).symm
    rwa [Frame.tail, Frame.closer, List.append_assoc] at tail
  have further := foldlM_frames apart distinct readable known mail.parts framesKnown
    (List.Subset.refl _) (List.pairwise_map.mp distinct.different) (fixed.1.trans found)
    (fixed.2.trans split) mail.root.ended_head
    (fun inner member => apart.heads _ (framesKnown member) _ known) behind
  have whole : start.vecBoundary.foldlM
      (fun helper boundary => helper.analyzeBoundary platform boundary) start =
      some (collected platform mail helper) := by
    rw [found, Mail.frames, List.map_cons, List.foldlM_cons, first]
    change (mail.parts.frames.map Frame.boundary).foldlM _ _ = _
    rw [further, collected, collect_append, start_eq]
  have tagged : getBoundaryTag { helper with strMail := mail.text } = some (true, start) := by
    rw [getBoundaryTag, apart.boundaryTags held, ← start_eq]
    rfl
  rw [analyzeBody, filled, tagged]
  change (start.vecBoundary.foldlM
    (fun helper boundary => analyzeBoundary platform boundary helper) start).bind _ = _
  rw [whole]
  rfl

end MailHelper

end MyBookSources.RecvMail
