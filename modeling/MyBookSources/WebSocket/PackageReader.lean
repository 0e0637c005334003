import MyBookSources.Foundation.Incremental
import MyBookSources.WebSocket.PackageDecoding

/-! # The session as a reader of packages

`onRead` decodes at most one package and leaves its loop, so a session after its
handshake is an incremental reader: what it does with the package in front depends on
the bytes of that package alone.
-/

namespace MyBookSources.WebSocket

open Incremental (Span)

namespace MyWebSocketSession

/-! ## Packages in the stream -/

/-- The opcodes that `processPackage` acts on. -/
def dispatched : MyOpCode → Bool
  | .textFrame | .binaryFrame | .close | .ping | .pong => true
  | _ => false

/-- A package of no bytes that no callback follows is in front forever. -/
def Idle (unread : Bytes) (headerSize bodyLength : Nat) : Prop :=
  headerSize + bodyLength = 0 ∧ ¬ (FIN unread = true ∧ dispatched (opcode unread) = true)

instance (unread : Bytes) (headerSize bodyLength : Nat) :
    Decidable (Idle unread headerSize bodyLength) :=
  inferInstanceAs (Decidable (_ ∧ _))

/-- What the header in front says: whether the package is all there, how many bytes are
taken with it, and whether its length overflows the signed sum. -/
def packageSpan (unread : Bytes) : Span :=
  if unread.length < MIN_WEBSOCKET_PACKAGE_HEADER_LENGTH then .waits
  else
    match packageLength (unread.take MAX_HEADER_LENGTH) with
    | .incomplete => .waits
    | .illegal => .takes 0
    | .known headerSize bodyLength =>
        if 2 ^ 63 ≤ headerSize + bodyLength then .fails
        else if unread.length < headerSize + bodyLength then .waits
        else if Idle unread headerSize bodyLength then .waits
        else .takes (headerSize + bodyLength)

/-- What the application and the connection see, apart from the bytes that are sent. -/
def callbacks (events : List SessionEvent) : List SessionEvent :=
  events.filter fun event =>
    match event with
    | .sent _ => false
    | _ => true

/-- What `onRead` does with the package in front. -/
def takePackage (platform : Platform) (session : MyWebSocketSession) (unread : Bytes) :
    MyWebSocketSession × List SessionEvent :=
  match packageLength (unread.take MAX_HEADER_LENGTH) with
  | .known headerSize bodyLength =>
      let merged := session.mergePackage platform (FIN unread) (opcode unread)
        (payloadData unread headerSize bodyLength)
      (merged.2.1, callbacks (merged.2.2 ++ if merged.1 then [] else [.forceClose]))
  | _ => (session, [.forceClose])

theorem packageLength_take {unread : Bytes} (small : unread.length < 2 ^ 31) :
    packageLength (unread.take MAX_HEADER_LENGTH) = packageLength unread := by
  rcases Nat.lt_or_ge MAX_HEADER_LENGTH unread.length with longer | all
  · have copied : (unread.take MAX_HEADER_LENGTH).length = MAX_HEADER_LENGTH :=
      List.length_take_of_le (by omega)
    have whole := List.take_append_drop MAX_HEADER_LENGTH unread
    have complete : packageLength (unread.take MAX_HEADER_LENGTH) ≠ .incomplete := by
      apply packageLength_complete
      · rw [copied]
        decide
      · omega
    have grown : packageLength (unread.take MAX_HEADER_LENGTH ++ unread.drop MAX_HEADER_LENGTH) =
        packageLength (unread.take MAX_HEADER_LENGTH) := by
      apply packageLength_append
      · rw [copied]
        decide
      · rw [whole]
        exact small
      · exact complete
    rw [whole] at grown
    exact grown.symm
  · rw [List.take_of_length_le all]

theorem packageLength_take_append {unread : Bytes} (received : 2 ≤ unread.length) (later : Bytes)
    (complete : packageLength (unread.take MAX_HEADER_LENGTH) ≠ .incomplete) :
    packageLength ((unread ++ later).take MAX_HEADER_LENGTH) =
      packageLength (unread.take MAX_HEADER_LENGTH) := by
  rw [List.take_append] at *
  apply packageLength_append
  · rw [List.length_take]
    unfold MAX_HEADER_LENGTH
    omega
  · rw [← List.take_append]
    apply (List.length_take_le _ _).trans_lt
    decide
  · exact complete

theorem Idle_append {unread : Bytes} (received : 2 ≤ unread.length) (later : Bytes)
    (headerSize bodyLength : Nat) :
    Idle (unread ++ later) headerSize bodyLength ↔ Idle unread headerSize bodyLength := by
  rw [Idle, Idle, FIN_append received, opcode_append received]

/-! ## The session as a reader -/

theorem packageSpan_takes {unread : Bytes} {count : Nat}
    (takes : packageSpan unread = .takes count) :
    MIN_WEBSOCKET_PACKAGE_HEADER_LENGTH ≤ unread.length ∧
      (packageLength (unread.take MAX_HEADER_LENGTH) = .illegal ∧ count = 0 ∨
        ∃ headerSize bodyLength,
          packageLength (unread.take MAX_HEADER_LENGTH) = .known headerSize bodyLength ∧
          headerSize + bodyLength < 2 ^ 63 ∧ headerSize + bodyLength ≤ unread.length ∧
          ¬ Idle unread headerSize bodyLength ∧ count = headerSize + bodyLength) := by
  unfold packageSpan at takes
  split at takes
  · cases takes
  · next enough =>
      refine ⟨by omega, ?_⟩
      split at takes
      · cases takes
      · next illegal =>
          cases takes
          exact .inl ⟨illegal, rfl⟩
      · next headerSize bodyLength known =>
          split at takes
          · cases takes
          · next fits =>
              split at takes
              · cases takes
              · next complete =>
                  split at takes
                  · cases takes
                  · next busy =>
                      cases takes
                      exact .inr ⟨headerSize, bodyLength, known, by omega, by omega, busy, rfl⟩

theorem packageSpan_encode (frame : Rfc6455.Frame) (rest : Bytes)
    (small : (frame.encode ++ rest).length < 2 ^ 31) (masked : frame.maskingKey.isSome = true)
    (nonempty : frame.payload ≠ []) :
    packageSpan (frame.encode ++ rest) = .takes frame.encode.length := by
  have positive : 0 < frame.payload.length := List.length_pos_iff.mpr nonempty
  have key := frame.length_keyBytes masked
  have size := frame.length_encode
  have sum := length_encode_append frame rest
  have known := packageLength_encode frame rest small nonempty
  rw [List.length_append] at sum
  have width : frame.encode.length = frameHeader frame + frame.payload.length := by omega
  have enough : ¬ (frame.encode ++ rest).length < MIN_WEBSOCKET_PACKAGE_HEADER_LENGTH := by
    rw [List.length_append]
    unfold MIN_WEBSOCKET_PACKAGE_HEADER_LENGTH
    omega
  rw [packageSpan, if_neg enough, packageLength_take small, known]
  have busy : ¬ Idle (frame.encode ++ rest) (frameHeader frame) frame.payload.length := by
    intro idle
    have empty := idle.1
    omega
  have fits : ¬ 2 ^ 63 ≤ frameHeader frame + frame.payload.length := by
    rw [List.length_append] at small
    omega
  have complete : ¬ (frame.encode ++ rest).length < frameHeader frame + frame.payload.length := by
    rw [List.length_append]
    omega
  simp only [fits, complete, busy, if_false, width]

theorem packageSpan_append {unread : Bytes} (later : Bytes)
    (determined : packageSpan unread ≠ .waits) :
    packageSpan (unread ++ later) = packageSpan unread := by
  have sum : (unread ++ later).length = unread.length + later.length := List.length_append
  unfold packageSpan at determined ⊢
  split at determined
  · exact absurd rfl determined
  · next enough =>
      have received : 2 ≤ unread.length := by
        unfold MIN_WEBSOCKET_PACKAGE_HEADER_LENGTH at enough
        omega
      rw [if_neg (by omega), if_neg enough]
      have complete : packageLength (unread.take MAX_HEADER_LENGTH) ≠ .incomplete := by
        intro incomplete
        rw [incomplete] at determined
        exact determined rfl
      rw [packageLength_take_append received later complete]
      split at determined
      · exact absurd rfl determined
      · rfl
      · next headerSize bodyLength known =>
          simp only [Idle_append received]
          split at determined
          · next long => rw [if_pos long, if_pos long]
          · next fits =>
              split at determined
              · exact absurd rfl determined
              · next complete =>
                  have grown : ¬ (unread ++ later).length < headerSize + bodyLength := by omega
                  simp only [fits, complete, grown, if_false]

theorem takePackage_append (platform : Platform) {unread : Bytes} {count : Nat}
    (session : MyWebSocketSession) (later : Bytes) (takes : packageSpan unread = .takes count) :
    takePackage platform session (unread ++ later) = takePackage platform session unread := by
  rcases packageSpan_takes takes with ⟨enough, shape⟩
  have received : 2 ≤ unread.length := by
    unfold MIN_WEBSOCKET_PACKAGE_HEADER_LENGTH at enough
    omega
  have short : (unread.take MAX_HEADER_LENGTH).length < 2 ^ 31 :=
    (List.length_take_le _ _).trans_lt (by decide)
  rcases shape with ⟨illegal, _⟩ | ⟨headerSize, bodyLength, known, _, within, _, _⟩
  · have grown := packageLength_take_append received later (by rw [illegal]; simp)
    simp only [takePackage, grown, illegal]
  · have grown := packageLength_take_append received later (by rw [known]; simp)
    have header := (header_of_known short known).1
    simp only [takePackage, grown, known, FIN_append received, opcode_append received,
      payloadData_append received later header within]

theorem processPackage_callbacks (platform : Platform) (session : MyWebSocketSession)
    (data : Bytes) {code : MyOpCode} (acts : dispatched code = true) :
    callbacks ((session.processPackage platform data code).2 ++
      if (session.processPackage platform data code).1 then [] else [.forceClose]) ≠ [] := by
  cases code with
  | textFrame | binaryFrame =>
      rw [processPackage]
      split
      · split <;> simp [callbacks]
      · simp [callbacks]
  | close | ping | pong => simp [processPackage, callbacks]
  | _ => cases acts

theorem mergePackage_idle (platform : Platform) (session : MyWebSocketSession) (data : Bytes)
    {fin : Bool} {code : MyOpCode} (quiet : ¬ (fin = true ∧ dispatched code = true)) :
    (session.mergePackage platform fin code data).1 = true ∧
      (session.mergePackage platform fin code data).2.2 = [] := by
  cases fin with
  | false => exact ⟨rfl, rfl⟩
  | true =>
      cases code <;> first
        | exact absurd ⟨rfl, rfl⟩ quiet
        | exact ⟨rfl, rfl⟩

theorem takePackage_progress (platform : Platform) {unread : Bytes} {count : Nat}
    (session : MyWebSocketSession) (takes : packageSpan unread = .takes count) :
    0 < count ∨ (takePackage platform session unread).2 ≠ [] := by
  rcases packageSpan_takes takes with
    ⟨_, ⟨illegal, rfl⟩ | ⟨headerSize, bodyLength, known, _, _, busy, rfl⟩⟩
  · right
    simp [takePackage, illegal]
  · rcases Nat.eq_zero_or_pos (headerSize + bodyLength) with empty | positive
    · right
      have followed : FIN unread = true ∧ dispatched (opcode unread) = true := by
        by_contra quiet
        exact busy ⟨empty, quiet⟩
      have acts := processPackage_callbacks platform
        { session with
          parsedData := session.parsedData ++ payloadData unread headerSize bodyLength }
        (session.parsedData ++ payloadData unread headerSize bodyLength) followed.2
      simp only [takePackage, known, mergePackage, followed.1, if_true]
      split
      · next closed => simpa only [closed] using acts
      · next done => simpa only [done] using acts
    · exact .inl positive

def packageReader (platform : Platform) :
    Incremental.Reader MyWebSocketSession Byte SessionEvent where
  span := packageSpan
  take := takePackage platform
  span_le := by
    intro unread count takes
    rcases (packageSpan_takes takes).2 with ⟨_, rfl⟩ | ⟨_, _, _, _, within, _, rfl⟩
    · omega
    · exact within
  span_append := packageSpan_append
  take_append := takePackage_append platform
  progress := takePackage_progress platform

/-! ## Reads -/

/-- Every call of `onRead` finds less than the size limit. -/
def WithinLimit (platform : Platform) (progress : Progress) : List Bytes → Prop
  | [] => True
  | read :: reads =>
      (progress.unread ++ read).length < MAX_WEBSOCKET_CLIENT_PACKAGE_LENGTH ∧
        ∀ next, progress.session.onRead platform (progress.unread ++ read) = some next →
          WithinLimit platform { next with events := progress.events ++ next.events } reads

theorem withinLimit_of_length {platform : Platform} {reads : List Bytes} {progress : Progress}
    (short : (progress.unread ++ reads.flatten).length < MAX_WEBSOCKET_CLIENT_PACKAGE_LENGTH) :
    WithinLimit platform progress reads := by
  induction reads generalizing progress with
  | nil => trivial
  | cons read reads induction =>
      rw [List.flatten_cons, ← List.append_assoc, List.length_append] at short
      constructor
      · omega
      · intro next returned
        rcases onReadLoop_counts returned with ⟨counts, _, same⟩
        have shorter : next.unread.length ≤ (progress.unread ++ read).length := by
          rw [same, List.length_drop]
          exact Nat.sub_le _ _
        apply induction
        rw [List.length_append]
        dsimp only
        omega

/-- The package in front is one that nothing ever follows. -/
def Stuck (unread : Bytes) : Prop :=
  MIN_WEBSOCKET_PACKAGE_HEADER_LENGTH ≤ unread.length ∧
    ∃ headerSize bodyLength, packageLength (unread.take MAX_HEADER_LENGTH) =
      .known headerSize bodyLength ∧ Idle unread headerSize bodyLength

theorem Stuck.waits {unread : Bytes} (stuck : Stuck unread) : packageSpan unread = .waits := by
  rcases stuck with ⟨enough, headerSize, bodyLength, known, idle⟩
  have fits : ¬ 2 ^ 63 ≤ headerSize + bodyLength := by
    have empty := idle.1
    omega
  rw [packageSpan, if_neg (by omega), known]
  simp only [fits, idle, if_true, if_false, ite_self]

theorem Stuck.append {unread : Bytes} (stuck : Stuck unread) (later : Bytes) :
    Stuck (unread ++ later) := by
  rcases stuck with ⟨enough, headerSize, bodyLength, known, idle⟩
  have received : 2 ≤ unread.length := by
    unfold MIN_WEBSOCKET_PACKAGE_HEADER_LENGTH at enough
    omega
  refine ⟨?_, headerSize, bodyLength, ?_, ?_⟩
  · rw [List.length_append]
    omega
  · rw [packageLength_take_append received later (by rw [known]; simp), known]
  · rwa [Idle_append received]

section

variable (platform : Platform) {session : MyWebSocketSession}
  (upgraded : session.updateToWebSocket = true) {unread : Bytes}
  (limit : unread.length < MAX_WEBSOCKET_CLIENT_PACKAGE_LENGTH)

include upgraded limit

theorem onRead_decodes (enough : MIN_WEBSOCKET_PACKAGE_HEADER_LENGTH ≤ unread.length) :
    session.onRead platform unread =
      (session.decodePackage platform unread).map fun result =>
        { result.2 with
          events := result.2.events ++ if result.1 then [] else [.forceClose] } := by
  rw [onRead_upgraded platform upgraded, if_neg (by omega), if_neg (by omega)]

theorem onRead_of_idle {headerSize bodyLength : Nat}
    (enough : MIN_WEBSOCKET_PACKAGE_HEADER_LENGTH ≤ unread.length)
    (known : packageLength unread = .known headerSize bodyLength)
    (idle : Idle unread headerSize bodyLength) :
    ∃ next, session.onRead platform unread = some ⟨next, unread, []⟩ ∧
      next.updateToWebSocket = true := by
  have small : unread.length < 2 ^ 31 := limit.trans (by decide)
  have empty := idle.1
  rcases mergePackage_idle platform session (payloadData unread headerSize bodyLength) idle.2 with
    ⟨decoded, silent⟩
  rcases session.mergePackage_session platform (FIN unread) (opcode unread)
    (payloadData unread headerSize bodyLength) with ⟨pending, merged⟩
  rw [onRead_decodes platform upgraded limit enough,
    decodePackage_received known platform session small (by omega)]
  refine ⟨{ session with parsedData := pending }, ?_, upgraded⟩
  simp [decoded, silent, merged, empty]

/-- Where the reader waits the session does too, or the package in front is stuck. -/
theorem onRead_of_waits (waits : packageSpan unread = .waits) :
    ∃ next, session.onRead platform unread = some ⟨next, unread, []⟩ ∧
      next.updateToWebSocket = true ∧ (next = session ∨ Stuck unread) := by
  have small : unread.length < 2 ^ 31 := limit.trans (by decide)
  unfold packageSpan at waits
  split at waits
  · next few =>
      rw [onRead_upgraded platform upgraded, if_neg (by omega), if_pos few]
      exact ⟨session, rfl, upgraded, .inl rfl⟩
  · next enough =>
      have decodes := onRead_decodes platform upgraded limit (by omega)
      rw [packageLength_take small] at waits
      split at waits
      · next incomplete =>
          rw [decodes, decodePackage, incomplete]
          exact ⟨session, rfl, upgraded, .inl rfl⟩
      · cases waits
      · next headerSize bodyLength known =>
          split at waits
          · cases waits
          · split at waits
            · next missing =>
                rw [decodes, decodePackage_missing known platform session small (by omega) missing]
                exact ⟨session, rfl, upgraded, .inl rfl⟩
            · split at waits
              · next idle =>
                  rcases onRead_of_idle platform upgraded limit (by omega) known idle with
                    ⟨next, read, upgradedNext⟩
                  rw [← packageLength_take small] at known
                  exact ⟨next, read, upgradedNext,
                    .inr ⟨by omega, headerSize, bodyLength, known, idle⟩⟩
              · cases waits

/-- Where the reader takes a package the session does the same with it. -/
theorem onRead_of_takes {count : Nat} (takes : packageSpan unread = .takes count) :
    ∃ next, session.onRead platform unread = some next ∧ next.unread = unread.drop count ∧
      next.session = (takePackage platform session unread).1 ∧
      callbacks next.events = (takePackage platform session unread).2 ∧
      next.session.updateToWebSocket = true := by
  have small : unread.length < 2 ^ 31 := limit.trans (by decide)
  rcases packageSpan_takes takes with
    ⟨enough, ⟨illegal, rfl⟩ | ⟨headerSize, bodyLength, known, _, received, _, rfl⟩⟩
  · rw [takePackage, illegal]
    rw [packageLength_take small] at illegal
    rw [onRead_decodes platform upgraded limit enough, decodePackage, illegal]
    exact ⟨_, rfl, rfl, rfl, rfl, upgraded⟩
  · rw [takePackage, known]
    rw [packageLength_take small] at known
    rw [onRead_decodes platform upgraded limit enough,
      decodePackage_received known platform session small received]
    rcases session.mergePackage_session platform (FIN unread) (opcode unread)
      (payloadData unread headerSize bodyLength) with ⟨pending, merged⟩
    refine ⟨_, rfl, rfl, rfl, rfl, ?_⟩
    dsimp only
    rw [merged]
    exact upgraded

theorem onRead_of_fails (fails : packageSpan unread = .fails) :
    session.onRead platform unread = none := by
  have small : unread.length < 2 ^ 31 := limit.trans (by decide)
  unfold packageSpan at fails
  split at fails
  · cases fails
  · next enough =>
      rw [packageLength_take small] at fails
      split at fails
      · cases fails
      · cases fails
      · next headerSize bodyLength known =>
          split at fails
          · next long =>
              rw [onRead_decodes platform upgraded limit (by omega),
                decodePackage_overflow known platform session long]
              rfl
          · split at fails
            · cases fails
            · split at fails <;> cases fails

end

/-! ## The session follows the reader -/

/-- The session and the reader have the same bytes unread and have caused the same
callbacks, and they agree until a package is stuck in front. -/
structure Follows (progress : Progress)
    (position : Incremental.Position MyWebSocketSession Byte SessionEvent) : Prop where
  upgraded : progress.session.updateToWebSocket = true
  unread : progress.unread = position.unread
  events : callbacks progress.events = position.events
  agree : progress.session = position.state ∨ Stuck position.unread

theorem callbacks_append (first second : List SessionEvent) :
    callbacks (first ++ second) = callbacks first ++ callbacks second :=
  List.filter_append ..

theorem readAll_follows (platform : Platform) {progress : Progress}
    {position : Incremental.Position MyWebSocketSession Byte SessionEvent}
    (follows : Follows progress position) {reads : List Bytes}
    (within : WithinLimit platform progress reads) :
    (readAll platform progress reads).map (fun last => (callbacks last.events, last.unread)) =
      ((packageReader platform).feedAll position reads).map fun last =>
        (last.events, last.unread) := by
  induction reads generalizing progress position with
  | nil => simp [readAll, Incremental.Reader.feedAll, follows.events, follows.unread]
  | cons read reads induction =>
      rcases within with ⟨limit, later⟩
      rw [readAll, Incremental.Reader.feedAll, Incremental.Reader.feed, Incremental.Reader.look]
      have span : (packageReader platform).span (position.unread ++ read) =
          packageSpan (progress.unread ++ read) := by
        rw [follows.unread]
        rfl
      dsimp only
      rw [span]
      cases arrived : packageSpan (progress.unread ++ read) with
      | waits =>
          rcases onRead_of_waits platform follows.upgraded limit arrived with
            ⟨next, returned, upgraded, kept⟩
          rw [returned]
          apply induction _ (later _ returned)
          refine ⟨upgraded, ?_, ?_, ?_⟩
          · rw [follows.unread]
          · rw [List.append_nil]
            exact follows.events
          · rw [follows.unread] at kept
            rcases follows.agree with same | stuck
            · exact kept.imp_left fun equal => equal.trans same
            · exact .inr (stuck.append read)
      | takes count =>
          have same : progress.session = position.state := by
            rcases follows.agree with same | stuck
            · exact same
            · have stopped := (stuck.append read).waits
              rw [← follows.unread, arrived] at stopped
              cases stopped
          rcases onRead_of_takes platform follows.upgraded limit arrived with
            ⟨next, returned, unread, session, events, upgraded⟩
          rw [returned]
          apply induction _ (later _ returned)
          refine ⟨upgraded, ?_, ?_, ?_⟩
          · rw [Incremental.Reader.advanceOne, ← follows.unread]
            exact unread
          · rw [callbacks_append, follows.events, events, same, follows.unread]
            rfl
          · left
            rw [session, same, follows.unread]
            rfl
      | fails =>
          rw [onRead_of_fails platform follows.upgraded limit arrived]
          rfl

end MyWebSocketSession

end MyBookSources.WebSocket
