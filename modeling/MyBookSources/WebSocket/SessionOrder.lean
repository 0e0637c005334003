import MyBookSources.WebSocket.HandshakeHeaders
import MyBookSources.WebSocket.PackageDecoding
import MyBookSources.WebSocket.SessionTrace

/-! # The order of a session

Whatever a client sends and however it arrives, a session only tests the member and closes
until it accepts a handshake. It accepts one at most, and what it does behind that comes
after the response and after `onConnect`.
-/

namespace MyBookSources.WebSocket

/-! ## Before and after the handshake -/

namespace TraceEntry

def Quiet : TraceEntry → Prop
  | .test updateToWebSocket => updateToWebSocket = false
  | .event .forceClose => True
  | _ => False

def Framed : TraceEntry → Prop
  | .test updateToWebSocket => updateToWebSocket = true
  | .update | .event (.sent _) | .event .onConnect => False
  | _ => True

end TraceEntry

def UpgradeResponse (platform : Platform) (response : Bytes) : Prop :=
  ∃ (session : MyWebSocketSession) (secWebSocketAccept : Bytes),
    response = session.makeUpgradeResponse platform secWebSocketAccept

/-- A record and the values of `m_bUpdateToWebSocket` in front of it and behind it. -/
inductive Leads (platform : Platform) : Bool → List TraceEntry → Bool → Prop
  | waits {trace : List TraceEntry} (quiet : ∀ entry ∈ trace, entry.Quiet) :
      Leads platform false trace false
  | upgrades {before after : List TraceEntry} {response : Bytes}
      (quiet : ∀ entry ∈ before, entry.Quiet) (made : UpgradeResponse platform response)
      (framed : ∀ entry ∈ after, entry.Framed) :
      Leads platform false
        (before ++ .event (.sent response) :: .update :: .event .onConnect :: after) true
  | goesOn {trace : List TraceEntry} (framed : ∀ entry ∈ trace, entry.Framed) :
      Leads platform true trace true

namespace Leads

variable {platform : Platform} {front middle back : Bool} {first second : List TraceEntry}

theorem nil (platform : Platform) (updated : Bool) : Leads platform updated [] updated := by
  cases updated with
  | false => exact .waits (by simp)
  | true => exact .goesOn (by simp)

theorem append (leads : Leads platform front first middle)
    (follows : Leads platform middle second back) :
    Leads platform front (first ++ second) back := by
  cases leads with
  | waits quiet =>
      cases follows with
      | waits quietBehind => exact waits (List.forall_mem_append.mpr ⟨quiet, quietBehind⟩)
      | upgrades quietBehind made framed =>
          rw [← List.append_assoc]
          exact upgrades (List.forall_mem_append.mpr ⟨quiet, quietBehind⟩) made framed
  | upgrades quiet made framed =>
      cases follows with
      | goesOn framedBehind =>
          rw [List.append_assoc]
          exact upgrades quiet made (List.forall_mem_append.mpr ⟨framed, framedBehind⟩)
  | goesOn framed =>
      cases follows with
      | goesOn framedBehind =>
          exact goesOn (List.forall_mem_append.mpr ⟨framed, framedBehind⟩)

theorem test (platform : Platform) (updated : Bool) :
    Leads platform updated [.test updated] updated := by
  cases updated with
  | false => exact waits (List.forall_mem_singleton.mpr rfl)
  | true => exact goesOn (List.forall_mem_singleton.mpr rfl)

theorem forceClose (platform : Platform) (updated : Bool) :
    Leads platform updated [.event .forceClose] updated := by
  cases updated with
  | false => exact waits (List.forall_mem_singleton.mpr trivial)
  | true => exact goesOn (List.forall_mem_singleton.mpr trivial)

end Leads

/-- A record that starts with `updated` in the member and ends with what the session has. -/
def Traced.Follows (platform : Platform) (updated : Bool) (traced : Traced) : Prop :=
  ∃ after, Leads platform updated traced.trace after ∧
    ∀ session unread, traced.last = some (session, unread) → session.updateToWebSocket = after

namespace MyWebSocketSession

section

variable {platform : Platform} {outside : Outside} {session : MyWebSocketSession}
  {unread : Bytes}

theorem updateToWebSocket_parseHttpPath {str : Bytes} {result : Bool × MyWebSocketSession}
    (parsed : session.parseHttpPath str = some result) :
    result.2.updateToWebSocket = session.updateToWebSocket := by
  rcases Option.bind_eq_some_iff.mp parsed with ⟨vecTags, _, tags⟩
  split at tags
  · split at tags
    · cases tags
      rfl
    · rcases Option.bind_eq_some_iff.mp tags with ⟨vecPathAndParams, _, parts⟩
      split at parts
      · cases parts
        rfl
      · cases parts
        rfl
  · cases tags
    rfl

theorem updateToWebSocket_parseHttpHeadersTraced (outside : Outside) (lines : List Bytes) :
    (session.parseHttpHeadersTraced outside lines).2.updateToWebSocket =
      session.updateToWebSocket := by
  induction lines generalizing session with
  | nil => rfl
  | cons line lines induction =>
      rw [parseHttpHeadersTraced]
      split
      · exact induction
      · rfl

theorem updateToWebSocket_readUserAgent :
    session.readUserAgent.updateToWebSocket = session.updateToWebSocket := by
  rw [readUserAgent]
  split
  · rfl
  · rfl

theorem updateToWebSocket_readExtensions {next : MyWebSocketSession}
    (read : session.readExtensions = some next) :
    next.updateToWebSocket = session.updateToWebSocket := by
  rw [readExtensions] at read
  split at read
  · rcases Option.bind_eq_some_iff.mp read with ⟨vecExtensions, _, equal⟩
    cases equal
    split
    · rfl
    · rfl
  · cases read
    rfl

/-- A handshake is accepted when it assigns to the member, and then it has answered. -/
def Answered (platform : Platform) (result : Bool × MyWebSocketSession × List TraceEntry) :
    Prop :=
  result.2.1.updateToWebSocket = result.1 ∧ Leads platform false result.2.2 result.1

theorem answered_refused (waiting : session.updateToWebSocket = false) :
    Answered platform (false, session, []) :=
  ⟨waiting, .nil platform false⟩

theorem answerKeyTraced_answered (waiting : session.updateToWebSocket = false) :
    Answered platform (session.answerKeyTraced platform outside) := by
  rw [answerKeyTraced]
  split
  · exact answered_refused waiting
  · split
    · exact answered_refused waiting
    · constructor
      · rfl
      · exact @Leads.upgrades platform [] [] _ (by simp) ⟨_, _, rfl⟩ (by simp)

theorem checkHttpHeadersTraced_answered (waiting : session.updateToWebSocket = false)
    {result : Bool × MyWebSocketSession × List TraceEntry}
    (checked : session.checkHttpHeadersTraced platform outside = some result) :
    Answered platform result := by
  rw [checkHttpHeadersTraced] at checked
  split at checked
  · cases checked
    exact answered_refused waiting
  · split at checked
    · cases checked
      exact answered_refused waiting
    · split at checked
      · cases checked
        exact answered_refused waiting
      · split at checked
        · cases checked
          exact answered_refused waiting
        · rcases Option.bind_eq_some_iff.mp checked with ⟨next, extended, equal⟩
          cases equal
          apply answerKeyTraced_answered
          rw [updateToWebSocket_readExtensions extended, updateToWebSocket_readUserAgent]
          exact waiting

theorem handleHandshakeTraced_answered (waiting : session.updateToWebSocket = false)
    {data : Bytes} {result : Bool × MyWebSocketSession × List TraceEntry}
    (handled : session.handleHandshakeTraced platform outside data = some result) :
    Answered platform result := by
  rcases Option.bind_eq_some_iff.mp handled with ⟨vecHttpHeaders, _, lines⟩
  split at lines
  · cases lines
    exact answered_refused waiting
  · next _ requestLine headerLines _ =>
      split at lines
      · cases lines
        exact answered_refused waiting
      · rcases Option.bind_eq_some_iff.mp lines with ⟨parsed, path, headers⟩
        have afterPath : parsed.2.updateToWebSocket = false :=
          (updateToWebSocket_parseHttpPath path).trans waiting
        dsimp only at headers
        split at headers
        · cases headers
          exact answered_refused afterPath
        · have afterHeaders := (updateToWebSocket_parseHttpHeadersTraced outside
            headerLines).trans afterPath
          split at headers
          · cases headers
            exact answered_refused afterHeaders
          · exact checkHttpHeadersTraced_answered afterHeaders headers

theorem processPackage_framed {data : Bytes} {opcode : MyOpCode} {event : SessionEvent}
    (member : event ∈ (session.processPackage platform data opcode).2) :
    (TraceEntry.event event).Framed := by
  cases opcode with
  | ping | pong =>
      cases List.mem_singleton.mp member
      trivial
  | textFrame | binaryFrame =>
      rw [processPackage] at member
      split at member
      · split at member
        · cases member
        · cases List.mem_singleton.mp member
          trivial
      · cases List.mem_singleton.mp member
        trivial
  | _ => cases member

theorem mergePackage_framed {fin : Bool} {opcode : MyOpCode} {data : Bytes}
    {event : SessionEvent}
    (member : event ∈ (session.mergePackage platform fin opcode data).2.2) :
    (TraceEntry.event event).Framed := by
  rw [mergePackage] at member
  dsimp only at member
  split at member
  · split at member
    · next events processed =>
        apply processPackage_framed
        rw [processed]
        exact member
    · next events processed =>
        apply processPackage_framed
        rw [processed]
        exact member
  · cases member

theorem decodePackage_framed {decoded : Bool} {progress : Progress}
    (returned : session.decodePackage platform unread = some (decoded, progress)) :
    progress.session.updateToWebSocket = session.updateToWebSocket ∧
      ∀ event ∈ progress.events, (TraceEntry.event event).Framed := by
  cases decodePackage_cases returned with
  | inl unchanged =>
      rw [unchanged]
      exact ⟨rfl, List.forall_mem_nil _⟩
  | inr taken =>
      rcases taken with ⟨headerSize, bodyLength, _, _, merged⟩
      rcases session.mergePackage_session platform (FIN unread) (opcode unread)
        (payloadData unread headerSize bodyLength) with ⟨pending, same⟩
      cases merged
      constructor
      · dsimp only
        rw [same]
      · exact fun event member => mergePackage_framed member

theorem framed_events {decoded : Bool} {events : List SessionEvent} {entry : TraceEntry}
    (framed : ∀ event ∈ events, (TraceEntry.event event).Framed)
    (member : entry ∈ (events ++ if decoded then [] else [SessionEvent.forceClose]).map .event) :
    entry.Framed := by
  rcases List.mem_map.mp member with ⟨event, happens, rfl⟩
  cases List.mem_append.mp happens with
  | inl inEvents => exact framed event inEvents
  | inr closing =>
      cases decoded with
      | false =>
          cases List.mem_singleton.mp closing
          trivial
      | true => cases closing

theorem onReadLoopTraced_follows (platform : Platform) (outside : Outside)
    (session : MyWebSocketSession) (unread : Bytes) (fuel : Nat) :
    (session.onReadLoopTraced platform outside unread fuel).Follows platform
      session.updateToWebSocket := by
  induction fuel generalizing session unread with
  | zero => exact ⟨_, .nil platform _, by simp [onReadLoopTraced]⟩
  | succ fuel induction =>
      have tested := Leads.test platform session.updateToWebSocket
      rw [onReadLoopTraced]
      split
      · refine ⟨_, .forceClose platform _, ?_⟩
        intro next rest equal
        cases equal
        rfl
      · split
        · next waiting =>
            split
            · split
              · refine ⟨_, tested, ?_⟩
                intro next rest equal
                cases equal
                rfl
              · refine ⟨_, tested.append (.forceClose platform _), ?_⟩
                intro next rest equal
                cases equal
                rfl
            · next pos _ =>
                split
                · exact ⟨_, tested, by simp⟩
                · next next entries handled =>
                    have answered := handleHandshakeTraced_answered waiting handled
                    rw [waiting] at tested ⊢
                    refine ⟨false, (tested.append answered.2).append (.forceClose platform _), ?_⟩
                    intro last rest equal
                    cases equal
                    exact answered.1
                · next next entries handled =>
                    have answered := handleHandshakeTraced_answered waiting handled
                    rcases induction next (unread.drop (pos + 4)) with ⟨after, leads, ends⟩
                    rw [waiting] at tested ⊢
                    rw [answered.1] at leads
                    exact ⟨after, (tested.append answered.2).append leads, ends⟩
        · next upgraded =>
            have switched : session.updateToWebSocket = true := by
              cases member : session.updateToWebSocket with
              | false => exact absurd member upgraded
              | true => rfl
            split
            · refine ⟨_, tested, ?_⟩
              intro next rest equal
              cases equal
              rfl
            · split
              · refine ⟨true, ?_, by simp⟩
                rw [switched]
                apply Leads.goesOn
                simp [TraceEntry.Framed]
              · next decoded progress returned =>
                  have framed := decodePackage_framed returned
                  refine ⟨true, ?_, ?_⟩
                  · rw [switched]
                    apply Leads.goesOn
                    intro entry member
                    cases member with
                    | head => rfl
                    | tail _ member =>
                        cases member with
                        | head => trivial
                        | tail _ member => exact framed_events framed.2 member
                  · intro next rest equal
                    cases equal
                    exact framed.1.trans switched

theorem readAllTraced_follows (platform : Platform) (outside : Outside)
    (session : MyWebSocketSession) (unread : Bytes) (reads : List Bytes) :
    (session.readAllTraced platform outside unread reads).Follows platform
      session.updateToWebSocket := by
  induction reads generalizing session unread with
  | nil =>
      refine ⟨_, .nil platform _, ?_⟩
      intro next rest equal
      cases equal
      rfl
  | cons read reads induction =>
      rcases onReadLoopTraced_follows platform outside session (unread ++ read) 2 with
        ⟨middle, leads, ends⟩
      rw [readAllTraced, onReadTraced]
      dsimp only
      split
      · next ended => exact ⟨middle, leads, ends⟩
      · next next rest returned =>
          rcases induction next rest with ⟨after, leadsBehind, endsBehind⟩
          rw [ends next rest returned] at leadsBehind
          exact ⟨after, leads.append leadsBehind, endsBehind⟩

end

section

variable {platform : Platform} {outside : Outside}

theorem checkHttpHeadersTraced_some (session : MyWebSocketSession) :
    ∃ result, session.checkHttpHeadersTraced platform outside = some result := by
  rw [checkHttpHeadersTraced]
  split
  · exact ⟨_, rfl⟩
  · split
    · exact ⟨_, rfl⟩
    · split
      · exact ⟨_, rfl⟩
      · split
        · exact ⟨_, rfl⟩
        · rcases session.readUserAgent.readExtensions_some with ⟨next, extended⟩
          rw [extended]
          exact ⟨_, rfl⟩

theorem handleHandshakeTraced_some (session : MyWebSocketSession) (data : Bytes) :
    ∃ result, session.handleHandshakeTraced platform outside data = some result := by
  rcases StringUtil.Split_some data (show ascii "\r\n" ≠ [] by decide) with ⟨lines, split⟩
  rw [handleHandshakeTraced, split]
  cases lines with
  | nil => exact ⟨_, rfl⟩
  | cons requestLine headerLines =>
      dsimp only [Option.bind_eq_bind, Option.bind_some]
      split
      · exact ⟨_, rfl⟩
      · rcases session.parseHttpPath_some requestLine with ⟨parsed, path⟩
        rw [path]
        dsimp only [Option.bind_some]
        split
        · exact ⟨_, rfl⟩
        · split
          · exact ⟨_, rfl⟩
          · exact checkHttpHeadersTraced_some _

theorem onReadLoopTraced_upgraded {session : MyWebSocketSession}
    (upgraded : session.updateToWebSocket = true) (unread : Bytes) (fuel : Nat)
    (ended : (session.onReadLoopTraced platform outside unread (fuel + 1)).last = none) :
    session.decodePackage platform unread = none := by
  rw [onReadLoopTraced] at ended
  split at ended
  · cases ended
  · rw [if_neg (by simp [upgraded])] at ended
    split at ended
    · cases ended
    · split at ended
      · next overflows => exact overflows
      · cases ended

/-- A record ends early only where a package overflows the signed sum. -/
theorem onReadTraced_last (session : MyWebSocketSession) (unread : Bytes)
    (ended : (session.onReadTraced platform outside unread).last = none) :
    ∃ (next : MyWebSocketSession) (rest : Bytes), next.decodePackage platform rest = none := by
  cases upgraded : session.updateToWebSocket with
  | true => exact ⟨_, _, onReadLoopTraced_upgraded upgraded unread 1 ended⟩
  | false =>
      rw [onReadTraced, onReadLoopTraced] at ended
      split at ended
      · cases ended
      · split at ended
        · split at ended
          · cases ended
          · cases ended
        · next pos _ =>
            rcases session.handleHandshakeTraced_some (unread.take (pos + 4)) with
              ⟨result, handled⟩
            have answered := handleHandshakeTraced_answered upgraded handled
            rw [handled] at ended
            split at ended
            · next impossible => cases impossible
            · cases ended
            · next equal =>
                cases equal
                exact ⟨_, _, onReadLoopTraced_upgraded answered.1 _ 0 ended⟩

end

end MyWebSocketSession

/-! ## What the application sends -/

def TraceEntry.isCallback : TraceEntry → Bool
  | .event .onConnect | .event (.onMessage _) | .event .onPing | .event .onPong => true
  | _ => false

/-- A record with what `application` sends from the callbacks, given everything so far. -/
def withSends (application : List TraceEntry → List Bytes) :
    List TraceEntry → List TraceEntry → List TraceEntry
  | _, [] => []
  | before, entry :: later =>
      let sends := if entry.isCallback then (application (before ++ [entry])).map .application
        else []
      entry :: sends ++ withSends application (before ++ entry :: sends) later

section

variable (application : List TraceEntry → List Bytes)

theorem withSends_append (before first second : List TraceEntry) :
    withSends application before (first ++ second) =
      withSends application before first ++
        withSends application (before ++ withSends application before first) second := by
  induction first generalizing before with
  | nil => simp [withSends]
  | cons entry first induction =>
      rw [List.cons_append, withSends, withSends, induction]
      simp

theorem withSends_quiet {trace : List TraceEntry} (quiet : ∀ entry ∈ trace, entry.Quiet)
    (before : List TraceEntry) : withSends application before trace = trace := by
  induction trace generalizing before with
  | nil => rfl
  | cons entry trace induction =>
      have silent : entry.isCallback = false := by
        have first := quiet entry (List.mem_cons_self ..)
        cases entry with
        | event event =>
            cases event with
            | forceClose => rfl
            | _ => cases first
        | _ => rfl
      rw [withSends, silent]
      simp only [Bool.false_eq_true, if_false]
      rw [induction fun other member => quiet other (List.mem_cons_of_mem _ member)]
      rfl

theorem withSends_framed {trace : List TraceEntry} (framed : ∀ entry ∈ trace, entry.Framed)
    (before : List TraceEntry) :
    ∀ entry ∈ withSends application before trace, entry.Framed := by
  induction trace generalizing before with
  | nil => simp [withSends]
  | cons first trace induction =>
      intro entry member
      rw [withSends] at member
      cases List.mem_append.mp member with
      | inl front =>
          cases front with
          | head => exact framed _ (List.mem_cons_self ..)
          | tail _ sent =>
              split at sent
              · rcases List.mem_map.mp sent with ⟨data, _, rfl⟩
                trivial
              · cases sent
      | inr behind =>
          exact induction (fun other inTrace => framed other (List.mem_cons_of_mem _ inTrace))
            _ entry behind

theorem Leads.sending {platform : Platform} {front back : Bool} {trace : List TraceEntry}
    (leads : Leads platform front trace back) (before : List TraceEntry) :
    Leads platform front (withSends application before trace) back := by
  cases leads with
  | waits quiet =>
      rw [withSends_quiet application quiet]
      exact waits quiet
  | @upgrades waiting after response quiet made framed =>
      rw [withSends_append, withSends_quiet application quiet]
      have start (before : List TraceEntry) :
          withSends application before
              (.event (.sent response) :: .update :: .event .onConnect :: after) =
            .event (.sent response) :: .update :: withSends application
              (before ++ [.event (.sent response), .update]) (.event .onConnect :: after) := by
        simp [withSends, TraceEntry.isCallback]
      rw [start, withSends, List.cons_append]
      apply upgrades quiet made
      intro entry member
      cases List.mem_append.mp member with
      | inl sent =>
          rcases List.mem_map.mp sent with ⟨data, _, rfl⟩
          trivial
      | inr behind => exact withSends_framed application framed _ entry behind
  | goesOn framed => exact goesOn (withSends_framed application framed before)

end

/-! ## The order -/

namespace TraceEntry

@[simp] theorem not_quiet_update : ¬ Quiet .update := fun quiet => quiet

@[simp] theorem not_quiet_onConnect : ¬ Quiet (.event .onConnect) := fun quiet => quiet

@[simp] theorem not_framed_update : ¬ Framed .update := fun framed => framed

@[simp] theorem not_framed_onConnect : ¬ Framed (.event .onConnect) := fun framed => framed

def needsConnect : TraceEntry → Bool
  | .decodePackage | .event (.onMessage _) | .event .onPing | .event .onPong => true
  | _ => false

def bytesSent : TraceEntry → Option Bytes
  | .event (.sent data) | .application data => some data
  | _ => none

def applicationBytes : TraceEntry → Option Bytes
  | .application data => some data
  | _ => none

theorem Quiet.bytesSent {entry : TraceEntry} (quiet : entry.Quiet) : entry.bytesSent = none := by
  cases entry with
  | event event =>
      cases event with
      | sent data => cases quiet
      | _ => rfl
  | application data => cases quiet
  | _ => rfl

theorem Quiet.applicationBytes {entry : TraceEntry} (quiet : entry.Quiet) :
    entry.applicationBytes = none := by
  cases entry with
  | application data => cases quiet
  | _ => rfl

theorem Quiet.needsConnect {entry : TraceEntry} (quiet : entry.Quiet) :
    entry.needsConnect = false := by
  cases entry with
  | event event =>
      cases event with
      | forceClose => rfl
      | _ => cases quiet
  | decodePackage => cases quiet
  | _ => rfl

theorem Framed.bytesSent {entry : TraceEntry} (framed : entry.Framed) :
    entry.bytesSent = entry.applicationBytes := by
  cases entry with
  | event event =>
      cases event with
      | sent data => cases framed
      | _ => rfl
  | _ => rfl

end TraceEntry

structure InOrder (platform : Platform) (trace : List TraceEntry) : Prop where
  updatedOnce : trace.count .update ≤ 1
  tests : ∀ before value after, trace = before ++ .test value :: after →
    (value = true ↔ .update ∈ before)
  connectedOnce : trace.count (.event .onConnect) ≤ 1
  connectedFirst : ∀ before entry after, trace = before ++ entry :: after →
    entry.needsConnect = true → .event .onConnect ∈ before
  respondedFirst : trace.filterMap TraceEntry.bytesSent = [] ∨
    ∃ response, UpgradeResponse platform response ∧
      trace.filterMap TraceEntry.bytesSent =
        response :: trace.filterMap TraceEntry.applicationBytes

theorem append_eq_append_cons {front back before after : List TraceEntry} {entry : TraceEntry}
    (equal : front ++ back = before ++ entry :: after) :
    entry ∈ front ∧ before ⊆ front ∨
      ∃ rest, before = front ++ rest ∧ back = rest ++ entry :: after := by
  cases List.append_eq_append_iff.mp equal with
  | inl inBack => exact .inr inBack
  | inr inFront =>
      rcases inFront with ⟨rest, rfl, behind⟩
      cases rest with
      | nil => exact .inr ⟨[], by simp, behind.symm⟩
      | cons first rest =>
          cases behind
          exact .inl ⟨by simp, by simp⟩

namespace Leads

variable {platform : Platform} {updated : Bool} {trace : List TraceEntry}

theorem updated_iff (leads : Leads platform false trace updated) :
    updated = true ↔ .update ∈ trace := by
  cases leads with
  | waits quiet =>
      constructor
      · intro impossible
        cases impossible
      · intro member
        cases quiet .update member
  | upgrades _ _ _ => simp

theorem inOrder_of_quiet (quiet : ∀ entry ∈ trace, entry.Quiet) : InOrder platform trace where
  updatedOnce := by
    rw [List.count_eq_zero.mpr fun member => quiet .update member]
    exact Nat.zero_le 1
  tests := by
    intro before value after equal
    subst equal
    have waiting : value = false := quiet (.test value) (by simp)
    rw [waiting]
    constructor
    · intro impossible
      cases impossible
    · intro member
      cases quiet .update (List.mem_append_left _ member)
  connectedOnce := by
    rw [List.count_eq_zero.mpr fun member => quiet (.event .onConnect) member]
    exact Nat.zero_le 1
  connectedFirst := by
    intro before entry after equal needs
    subst equal
    rw [(quiet entry (by simp)).needsConnect] at needs
    cases needs
  respondedFirst := by
    apply Or.inl
    rw [List.filterMap_eq_nil_iff]
    exact fun entry member => (quiet entry member).bytesSent

section

variable {before after front behind : List TraceEntry} {entry : TraceEntry} {response : Bytes}
  (quiet : ∀ entry ∈ before, entry.Quiet) (framed : ∀ entry ∈ after, entry.Framed)

include quiet framed

theorem located (equal : before ++ .event (.sent response) :: .update :: .event .onConnect ::
      after = front ++ entry :: behind) :
    entry.Quiet ∧ .update ∉ front ∨
      entry ∈ [.event (.sent response), .update, .event .onConnect] ∨
      entry.Framed ∧ .update ∈ front ∧ .event .onConnect ∈ front := by
  cases append_eq_append_cons equal with
  | inl inBefore =>
      exact .inl ⟨quiet entry inBefore.1, fun member => quiet .update (inBefore.2 member)⟩
  | inr later =>
      rcases later with ⟨rest, rfl, handshake⟩
      have divided : [.event (.sent response), .update, .event .onConnect] ++ after =
          rest ++ entry :: behind := handshake
      cases append_eq_append_cons divided with
      | inl inHandshake => exact .inr (.inl inHandshake.1)
      | inr last =>
          rcases last with ⟨rest, rfl, rfl⟩
          exact .inr (.inr ⟨framed entry (by simp), by simp, by simp⟩)

theorem inOrder_of_upgrade (made : UpgradeResponse platform response) :
    InOrder platform
      (before ++ .event (.sent response) :: .update :: .event .onConnect :: after) where
  updatedOnce := by
    have noneBefore : before.count .update = 0 :=
      List.count_eq_zero.mpr fun member => quiet .update member
    have noneAfter : after.count .update = 0 :=
      List.count_eq_zero.mpr fun member => framed .update member
    simp [noneBefore, noneAfter]
  tests := by
    intro front value behind equal
    rcases located quiet framed equal with waiting | handshake | upgraded
    · have read : value = false := waiting.1
      simp [read, waiting.2]
    · simp at handshake
    · have read : value = true := upgraded.1
      simp [read, upgraded.2.1]
  connectedOnce := by
    have noneBefore : before.count (.event .onConnect) = 0 :=
      List.count_eq_zero.mpr fun member => quiet (.event .onConnect) member
    have noneAfter : after.count (.event .onConnect) = 0 :=
      List.count_eq_zero.mpr fun member => framed (.event .onConnect) member
    simp [noneBefore, noneAfter]
  connectedFirst := by
    intro front entry behind equal needs
    rcases located quiet framed equal with waiting | handshake | upgraded
    · rw [waiting.1.needsConnect] at needs
      cases needs
    · simp only [List.mem_cons, List.not_mem_nil, or_false] at handshake
      rcases handshake with rfl | rfl | rfl
      · cases needs
      · cases needs
      · cases needs
    · exact upgraded.2.2
  respondedFirst := by
    apply Or.inr
    have sentBefore : before.filterMap TraceEntry.bytesSent = [] :=
      List.filterMap_eq_nil_iff.mpr fun entry member => (quiet entry member).bytesSent
    have appliedBefore : before.filterMap TraceEntry.applicationBytes = [] :=
      List.filterMap_eq_nil_iff.mpr fun entry member => (quiet entry member).applicationBytes
    have sentAfter : after.filterMap TraceEntry.bytesSent =
        after.filterMap TraceEntry.applicationBytes :=
      List.filterMap_congr fun entry member => (framed entry member).bytesSent
    refine ⟨response, made, ?_⟩
    rw [List.filterMap_append, List.filterMap_append, sentBefore, appliedBefore]
    exact congrArg (response :: ·) sentAfter

end

theorem inOrder (leads : Leads platform false trace updated) : InOrder platform trace := by
  cases leads with
  | waits quiet => exact inOrder_of_quiet quiet
  | upgrades quiet made framed => exact inOrder_of_upgrade quiet framed made

end Leads

/-- However the client's bytes arrive and whatever the application sends from its callbacks,
everything happens in order, and the member shows whether it was assigned to. -/
theorem readAll_inOrder (platform : Platform) (outside : Outside)
    (application : List TraceEntry → List Bytes) (reads : List Bytes) :
    let traced := MyWebSocketSession.create.readAllTraced platform outside [] reads
    let trace := withSends application [] traced.trace
    InOrder platform trace ∧
      ∀ session unread, traced.last = some (session, unread) →
        (session.updateToWebSocket = true ↔ .update ∈ trace) := by
  intro traced trace
  rcases MyWebSocketSession.readAllTraced_follows platform outside .create [] reads with
    ⟨after, leads, ends⟩
  have leadsSending := leads.sending application []
  constructor
  · exact leadsSending.inOrder
  · intro session unread returned
    rw [ends session unread returned]
    exact leadsSending.updated_iff

end MyBookSources.WebSocket
