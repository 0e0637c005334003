import MyBookSources.Foundation.Execution
import MyBookSources.WebSocket.FragmentedMessage
import MyBookSources.WebSocket.LengthBounds

/-! # Pending data

The limit on a client's data is compared with the unread bytes of the input buffer alone. A
fragment that is not the last moves its bytes from there to the pending data, of which no branch
takes the size, so a client can have a session keep any number of bytes.
-/

namespace MyBookSources.WebSocket

open Machine

namespace MyWebSocketSession

/-- One read, as in `readAll`. -/
def readStep (platform : Platform) (progress : Progress) (read : Bytes) : Option Progress :=
  (progress.session.onRead platform (progress.unread ++ read)).map fun next =>
    { next with events := progress.events ++ next.events }

theorem readAll_eq_runPartial (platform : Platform) (progress : Progress) (reads : List Bytes) :
    readAll platform progress reads = runPartial (readStep platform) progress reads := by
  induction reads generalizing progress with
  | nil => rfl
  | cons read reads induction =>
      rw [readAll, runPartial, readStep]
      cases progress.session.onRead platform (progress.unread ++ read) with
      | none => rfl
      | some next => exact induction _

/-- What the session keeps of the client's data is below the limit, or the session has closed. -/
def MessageBounded (progress : Progress) : Prop :=
  progress.session.parsedData.length + progress.unread.length <
      MAX_WEBSOCKET_CLIENT_PACKAGE_LENGTH ∨
    .forceClose ∈ progress.events

/-- The package in front is refused, or all there and either the last of its message or with a
header whose bytes make up for those above the limit. -/
def Relieves (pending : Nat) (unread : Bytes) : Prop :=
  MIN_WEBSOCKET_PACKAGE_HEADER_LENGTH ≤ unread.length ∧
    match packageLength unread with
    | .incomplete => False
    | .illegal => True
    | .known headerSize bodyLength =>
        headerSize + bodyLength ≤ unread.length ∧
          (FIN unread = true ∨
            pending + unread.length < headerSize + MAX_WEBSOCKET_CLIENT_PACKAGE_LENGTH)

/-- The session does not decode, or the length in front is not at the top of its range. -/
def SumFits (unread : Bytes) : Prop :=
  MAX_WEBSOCKET_CLIENT_PACKAGE_LENGTH ≤ unread.length ∨
    unread.length < MIN_WEBSOCKET_PACKAGE_HEADER_LENGTH ∨ ¬ LengthAtTop unread

/-- No sum overflows, and the session has closed, the limit on the unread bytes applies, pending
and unread bytes are within the limit together, or the package in front is a relief. -/
def KeepsBound (progress : Progress) (read : Bytes) : Prop :=
  SumFits (progress.unread ++ read) ∧
    (.forceClose ∈ progress.events ∨
      MAX_WEBSOCKET_CLIENT_PACKAGE_LENGTH ≤ (progress.unread ++ read).length ∨
      progress.session.parsedData.length + (progress.unread ++ read).length <
        MAX_WEBSOCKET_CLIENT_PACKAGE_LENGTH ∨
      Relieves progress.session.parsedData.length (progress.unread ++ read))

theorem length_payloadData {unread : Bytes} {headerSize bodyLength : Nat}
    (received : headerSize + bodyLength ≤ unread.length) :
    (payloadData unread headerSize bodyLength).length = bodyLength := by
  have body : (unread.slice headerSize (headerSize + bodyLength)).length = bodyLength := by
    rw [Bytes.slice, List.length_drop, List.length_take]
    omega
  rw [payloadData]
  split
  · rw [unmaskData_eq_mask, Rfc6455.length_mask, body]
  · exact body

theorem mergePackage_final (platform : Platform) (session : MyWebSocketSession)
    (code : MyOpCode) (data : Bytes) :
    let merged := session.mergePackage platform true code data
    merged.1 = true ∧ merged.2.1.parsedData = [] ∨ merged.1 = false := by
  intro merged
  simp only [merged, mergePackage, if_true]
  split
  · exact .inr rfl
  · exact .inl ⟨rfl, rfl⟩

theorem mergePackage_fragment (platform : Platform) (session : MyWebSocketSession)
    (code : MyOpCode) (data : Bytes) :
    session.mergePackage platform false code data =
      (true, { session with parsedData := session.parsedData ++ data }, []) :=
  rfl

theorem bounded_waiting_iff (session : MyWebSocketSession) {unread : Bytes}
    (events : List SessionEvent)
    (limit : ¬ MAX_WEBSOCKET_CLIENT_PACKAGE_LENGTH ≤ unread.length)
    (waits : ¬ Relieves session.parsedData.length unread) :
    MessageBounded ⟨session, unread, events⟩ ↔
      .forceClose ∈ events ∨ MAX_WEBSOCKET_CLIENT_PACKAGE_LENGTH ≤ unread.length ∨
        session.parsedData.length + unread.length < MAX_WEBSOCKET_CLIENT_PACKAGE_LENGTH ∨
        Relieves session.parsedData.length unread := by
  simp only [MessageBounded, limit, waits, false_or, or_false]
  exact or_comm

/-- What taking a package leaves is bounded if the package is final or the bytes of its header make
up for those above the limit. -/
theorem bounded_taken_iff (platform : Platform) (session : MyWebSocketSession) {unread : Bytes}
    {headerSize bodyLength : Nat} (events : List SessionEvent)
    (complete : headerSize + bodyLength ≤ unread.length)
    (limit : unread.length < MAX_WEBSOCKET_CLIENT_PACKAGE_LENGTH) :
    let merged := session.mergePackage platform (FIN unread) (opcode unread)
      (payloadData unread headerSize bodyLength)
    MessageBounded ⟨merged.2.1, unread.drop (headerSize + bodyLength),
        events ++ (merged.2.2 ++ if merged.1 then [] else [.forceClose])⟩ ↔
      .forceClose ∈ events ∨ FIN unread = true ∨
        session.parsedData.length + unread.length <
          headerSize + MAX_WEBSOCKET_CLIENT_PACKAGE_LENGTH := by
  have data := length_payloadData complete
  cases FIN unread with
  | true =>
      rcases session.mergePackage_final platform (opcode unread)
        (payloadData unread headerSize bodyLength) with ⟨accepted, cleared⟩ | refused
      · simp [MessageBounded, cleared, List.length_drop]
        omega
      · simp [MessageBounded, refused]
  | false =>
      simp only [mergePackage_fragment]
      by_cases closed : .forceClose ∈ events
      · simp [MessageBounded, closed]
      · simp [MessageBounded, closed, data, List.length_drop]
        omega

theorem onRead_isSome_iff (platform : Platform) {session : MyWebSocketSession}
    (upgraded : session.updateToWebSocket = true) (unread : Bytes) :
    (session.onRead platform unread).isSome = true ↔ SumFits unread := by
  rw [onRead_upgraded platform upgraded, SumFits]
  split
  · next limit => simp [limit]
  · next limit =>
    split
    · next few => simp [few]
    · next enough =>
      rw [← decodePackage_eq_none_iff platform session]
      simp [limit, enough, Option.isSome_iff_ne_none]

section

variable {platform : Platform} {session : MyWebSocketSession} {unread : Bytes} {next : Progress}
  (upgraded : session.updateToWebSocket = true) (events : List SessionEvent)
  (returned : session.onRead platform unread = some next)

include upgraded returned

theorem onRead_stays_upgraded : next.session.updateToWebSocket = true := by
  rw [onRead_upgraded platform upgraded] at returned
  split at returned
  · cases returned
    exact upgraded
  · split at returned
    · cases returned
      exact upgraded
    · rcases Option.map_eq_some_iff.mp returned with ⟨⟨decoded, progress⟩, decode, rfl⟩
      rcases decodePackage_cases decode with rfl | ⟨headerSize, bodyLength, _, _, taken⟩
      · exact upgraded
      · cases taken
        rcases session.mergePackage_session platform (FIN unread) (opcode unread)
          (payloadData unread headerSize bodyLength) with ⟨pending, merged⟩
        dsimp only
        rw [merged]
        exact upgraded

/-- What a read leaves is bounded exactly if the read keeps the bound. -/
theorem bounded_onRead_iff :
    MessageBounded { next with events := events ++ next.events } ↔
      .forceClose ∈ events ∨ MAX_WEBSOCKET_CLIENT_PACKAGE_LENGTH ≤ unread.length ∨
        session.parsedData.length + unread.length < MAX_WEBSOCKET_CLIENT_PACKAGE_LENGTH ∨
        Relieves session.parsedData.length unread := by
  rw [onRead_upgraded platform upgraded] at returned
  split at returned
  · next limit =>
    cases returned
    simp [MessageBounded, limit]
  · next limit =>
    split at returned
    · next few =>
      cases returned
      have waits : ¬ Relieves session.parsedData.length unread := by
        rintro ⟨received, _⟩
        omega
      have kept := bounded_waiting_iff session events limit waits
      rwa [List.append_nil]
    · next enough =>
      have small : unread.length < 2 ^ 31 := by
        have bound : MAX_WEBSOCKET_CLIENT_PACKAGE_LENGTH < 2 ^ 31 := by decide
        omega
      have received : MIN_WEBSOCKET_PACKAGE_HEADER_LENGTH ≤ unread.length := by omega
      rcases Option.map_eq_some_iff.mp returned with ⟨⟨decoded, progress⟩, decode, rfl⟩
      unfold decodePackage at decode
      split at decode
      · next incomplete =>
        cases decode
        have waits : ¬ Relieves session.parsedData.length unread := by
          rw [Relieves, incomplete]
          exact And.right
        have kept := bounded_waiting_iff session events limit waits
        simpa only [if_true, List.append_nil] using kept
      · next illegal =>
        cases decode
        simp [MessageBounded, Relieves, illegal, received]
      · next headerSize bodyLength known =>
        split at decode
        · cases decode
        · split at decode
          · next missing =>
            cases decode
            rw [int32_of_lt small] at missing
            have waits : ¬ Relieves session.parsedData.length unread := by
              rw [Relieves, known]
              rintro ⟨_, complete, _⟩
              omega
            have kept := bounded_waiting_iff session events limit waits
            simpa only [if_true, List.append_nil] using kept
          · next covered =>
            have low := int32_le unread.length
            have complete : headerSize + bodyLength ≤ unread.length := by omega
            have taken := bounded_taken_iff platform session events complete (by omega)
            have beyond : session.parsedData.length + unread.length <
                MAX_WEBSOCKET_CLIENT_PACKAGE_LENGTH →
                session.parsedData.length + unread.length <
                  headerSize + MAX_WEBSOCKET_CLIENT_PACKAGE_LENGTH := by omega
            rcases merged : session.mergePackage platform (FIN unread) (opcode unread)
              (payloadData unread headerSize bodyLength) with ⟨accepted, mergedSession, made⟩
            rw [merged] at decode taken
            cases decode
            refine taken.trans ?_
            simp only [Relieves, known, received, complete, limit, true_and, false_or]
            apply or_congr_right
            exact (or_iff_right_of_imp fun below => .inr (beyond below)).symm

end

/-- What the session keeps stays below the limit, or the session closes, exactly if each read
keeps the bound. -/
theorem messageBounded_iff_keepsBound (platform : Platform) {progress : Progress}
    (upgraded : progress.session.updateToWebSocket = true)
    (start : progress.session.parsedData.length + progress.unread.length <
      MAX_WEBSOCKET_CLIENT_PACKAGE_LENGTH) (reads : List Bytes) :
    RunHolds (readStep platform) MessageBounded progress reads ↔
      RunPermits (readStep platform) KeepsBound progress reads := by
  let invariant (state : Progress) : Prop :=
    state.session.updateToWebSocket = true ∧ MessageBounded state
  have initial : invariant progress := ⟨upgraded, .inl start⟩
  apply runHolds_iff_runPermits (fun _ kept => kept.2) _ _ initial
  · rintro state read ⟨upgraded, _⟩ ⟨fits, keeps⟩
    rcases Option.isSome_iff_exists.mp ((onRead_isSome_iff platform upgraded _).mpr fits) with
      ⟨next, returned⟩
    have stays := onRead_stays_upgraded upgraded returned
    have bounded := (bounded_onRead_iff upgraded state.events returned).mpr keeps
    refine ⟨{ next with events := state.events ++ next.events }, ?_, stays, bounded⟩
    rw [readStep, returned]
    rfl
  · rintro state read next ⟨upgraded, _⟩ done bounded
    rcases Option.map_eq_some_iff.mp done with ⟨after, returned, rfl⟩
    refine ⟨(onRead_isSome_iff platform upgraded _).mp (by rw [returned]; rfl), ?_⟩
    exact (bounded_onRead_iff upgraded state.events returned).mp bounded

def justUpgraded : MyWebSocketSession :=
  { create with updateToWebSocket := true }

/-- A text frame with a key of zeros, in two reads. -/
def twoReads : List Bytes :=
  [[0x81, 0x85, 0, 0, 0, 0, 72], [101, 108, 108, 111]]

theorem messageBounded_iff_keepsBound_two :
    RunHolds (readStep .still) MessageBounded ⟨justUpgraded, [], []⟩ twoReads := by
  apply (@messageBounded_iff_keepsBound .still ⟨justUpgraded, [], []⟩ rfl (by decide)
    twoReads).mpr
  refine ⟨⟨.inr (.inr fun top => absurd top.1 (by decide)), .inr (.inr (.inl (by decide)))⟩, ?_⟩
  intro next taken
  cases taken
  exact ⟨⟨.inr (.inr fun top => absurd top.1 (by decide)), .inr (.inr (.inl (by decide)))⟩,
    fun _ _ => trivial⟩

/-! ## Fragments add up -/

theorem readAll_fragments (platform : Platform) {session : MyWebSocketSession}
    (ready : session.Ready) (events : List SessionEvent) (frame : Rfc6455.Frame)
    (masked : frame.maskingKey.isSome = true) (nonempty : frame.payload ≠ [])
    (notFinal : frame.fin = false)
    (below : frame.encode.length < MAX_WEBSOCKET_CLIENT_PACKAGE_LENGTH) (count : Nat) :
    readAll platform ⟨session, [], events⟩ (List.replicate count frame.encode) =
      some ⟨{ session with
        parsedData := session.parsedData ++ (List.replicate count frame.payload).flatten },
        [], events⟩ := by
  induction count generalizing session with
  | zero => simp [readAll]
  | succ count induction =>
      let next := { session with parsedData := session.parsedData ++ frame.payload }
      have read : session.onRead platform frame.encode = some ⟨next, [], []⟩ := by
        rw [onRead_encode ready frame masked nonempty, if_neg (by omega), notFinal,
          mergePackage_fragment]
        rfl
      have nextReady : next.Ready := ⟨ready.upgraded, ready.uncompressed⟩
      rw [List.replicate_succ, readAll, List.nil_append, read]
      simpa [next, List.replicate_succ, List.append_assoc] using induction nextReady

/-- Thirty mebibytes of a message that goes on. -/
def longFragment : Fragment where
  key := ⟨[0, 0, 0, 0], rfl⟩
  payload := List.replicate (30 * 1024 * 1024) 0
  short := by
    rw [List.length_replicate]
    decide

def longFrame : Rfc6455.Frame := longFragment.frame false .textFrame

theorem length_longPayload : longFrame.payload.length = 30 * 1024 * 1024 :=
  List.length_replicate

theorem length_longFrame : longFrame.encode.length = 14 + 30 * 1024 * 1024 := by
  rw [Rfc6455.Frame.length_encode, length_longPayload, longFrame.length_keyBytes rfl,
    Rfc6455.extendedLength, if_neg (by decide), if_neg (by decide), BigEndian.length_encode]

/-- Two such fragments are kept, and the session does not close. -/
theorem fragments_exceed_limit :
    (∃ last,
      readAll .still ⟨justUpgraded, [], []⟩ [longFrame.encode, longFrame.encode] = some last ∧
        last.session.parsedData.length = 60 * 1024 * 1024 ∧ last.events = []) ∧
      ¬ RunHolds (readStep .still) MessageBounded ⟨justUpgraded, [], []⟩
        [longFrame.encode, longFrame.encode] := by
  have ready : justUpgraded.Ready := ⟨rfl, rfl⟩
  have nonempty : longFrame.payload ≠ [] := by
    rw [← List.length_pos_iff, length_longPayload]
    decide
  have below : longFrame.encode.length < MAX_WEBSOCKET_CLIENT_PACKAGE_LENGTH := by
    rw [length_longFrame]
    decide
  have kept := readAll_fragments .still ready [] longFrame rfl nonempty rfl below 2
  have length : (justUpgraded.parsedData ++
      (List.replicate 2 longFrame.payload).flatten).length = 60 * 1024 * 1024 := by
    have pending : justUpgraded.parsedData.length = 0 := rfl
    rw [List.length_append, List.length_flatten, List.map_replicate, List.sum_replicate_nat,
      length_longPayload, pending]
  obtain ⟨last, run, pending, events⟩ : ∃ last,
      readAll .still ⟨justUpgraded, [], []⟩ [longFrame.encode, longFrame.encode] = some last ∧
        last.session.parsedData.length = 60 * 1024 * 1024 ∧ last.events = [] :=
    ⟨_, kept, length, rfl⟩
  refine ⟨⟨last, run, pending, events⟩, ?_⟩
  intro along
  rw [readAll_eq_runPartial] at run
  have limit : MAX_WEBSOCKET_CLIENT_PACKAGE_LENGTH = 50 * 1024 * 1024 := rfl
  rcases last_of_runHolds along run with few | closed
  · rw [pending, limit] at few
    omega
  · rw [events] at closed
    cases closed

end MyWebSocketSession

end MyBookSources.WebSocket
