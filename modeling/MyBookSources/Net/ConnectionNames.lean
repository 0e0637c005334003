import MyBookSources.Foundation.Execution
import MyBookSources.Net.TcpServer

/-! # The names of connections

`newConnection` prints the address of the server and a counter into 32 bytes and uses what
fits as the key of the connection in `connections_`. The key is unique as long as the front
of the counter that fits is, and `removeConnectionInLoop` erases by the key.
-/

namespace MyBookSources.Net

/-- `InetAddress::toIpPort` of the address `a.b.c.d`. -/
def toIpPort (a b c d : UInt8) (port : UInt16) : String :=
  toString a.toNat ++ "." ++ toString b.toNat ++ "." ++ toString c.toNat ++ "." ++
    toString d.toNat ++ ":" ++ toString port.toNat

/-- What `newConnection` and `removeConnectionInLoop` know of the connections. A connection
has the number of those accepted before it, a key can keep a pointer that `stop` has reset,
`names` are the names given so far, and `live` are the connections that neither a removal
nor `stop` has dropped. -/
structure ServerNames where
  name : String
  hostport : String
  nextConnId : BitVec 32
  connections : String → Option (Option Nat)
  names : List String
  live : List Nat

inductive NameLabel
  | newConnection
  | removeConnectionInLoop (connection : Nat)
  | stop
  deriving DecidableEq

namespace ServerNames

def create (name hostport : String) : ServerNames where
  name := name
  hostport := hostport
  nextConnId := 1
  connections _ := none
  names := []
  live := []

/-- `snprintf` into `buf` and the sum; the `int` is printed with its sign. -/
def connName (server : ServerNames) : String :=
  server.name ++ String.ofList
    ((":" ++ server.hostport ++ "#" ++ toString server.nextConnId.toInt).toList.take 31)

def newConnection (server : ServerNames) : ServerNames :=
  { server with
    nextConnId := server.nextConnId + 1
    connections :=
      Function.update server.connections server.connName (some (some server.names.length))
    names := server.names ++ [server.connName]
    live := server.names.length :: server.live }

def removeConnectionInLoop (server : ServerNames) (connection : Nat) : Option ServerNames :=
  server.names[connection]?.map fun name =>
    { server with
      connections := Function.update server.connections name none
      live := server.live.filter (· ≠ connection) }

/-- The loop of `stop` resets the pointers and leaves the keys. -/
def stop (server : ServerNames) : ServerNames :=
  { server with
    connections := fun key => (server.connections key).map fun _ => none
    live := [] }

def step (server : ServerNames) : NameLabel → Option ServerNames
  | .newConnection => some server.newConnection
  | .removeConnectionInLoop connection => server.removeConnectionInLoop connection
  | .stop => some server.stop

/-- The assignment replaces no live entry, and a removal erases no live entry but that of
its connection, and this one if the connection is live. -/
def Right (server : ServerNames) : NameLabel → Prop
  | .newConnection => ∀ connection, server.connections server.connName ≠ some (some connection)
  | .removeConnectionInLoop connection => ∀ name, server.names[connection]? = some name →
      (connection ∈ server.live → server.connections name = some (some connection)) ∧
      ∀ other, server.connections name = some (some other) → other = connection
  | .stop => True

def idText (hostport : String) (connection : Nat) : List Char :=
  (toString (BitVec.ofNat 32 (connection + 1)).toInt).toList.take (29 - hostport.length)

/-- The counter of a new connection differs from those of the live ones in what fits of it,
and so does the counter of a connection that is removed after `stop`, or again. -/
def IdsDiffer (server : ServerNames) : NameLabel → Prop
  | .newConnection => ∀ other ∈ server.live,
      idText server.hostport other ≠ idText server.hostport server.names.length
  | .removeConnectionInLoop connection => connection < server.names.length →
      connection ∉ server.live → ∀ other ∈ server.live,
        idText server.hostport other ≠ idText server.hostport connection
  | .stop => True

/-! ## Names -/

def nameOf (name hostport : String) (connection : Nat) : String :=
  name ++ String.ofList ((":" ++ hostport ++ "#" ++
    toString (BitVec.ofNat 32 (connection + 1)).toInt).toList.take 31)

theorem nameOf_eq_iff (name hostport : String) (left right : Nat) :
    nameOf name hostport left = nameOf name hostport right ↔
      idText hostport left = idText hostport right := by
  have front : (":" ++ hostport ++ "#").toList.length = hostport.length + 2 := by
    rw [String.length_toList, String.length_append, String.length_append]
    change 1 + hostport.length + 1 = _
    omega
  have room : 31 - (hostport.length + 2) = 29 - hostport.length := by omega
  have printed : ∀ connection, (nameOf name hostport connection).toList =
      name.toList ++ ((":" ++ hostport ++ "#").toList.take 31 ++ idText hostport connection) := by
    intro connection
    rw [nameOf, String.toList_append, String.toList_ofList, String.toList_append,
      List.take_append, front, room, idText]
  rw [← String.toList_inj, printed, printed, List.append_cancel_left_eq,
    List.append_cancel_left_eq]

theorem toString_toList_inj {left right : Nat}
    (same : (toString left).toList = (toString right).toList) : left = right := by
  rw [Nat.toString_eq_repr, Nat.toString_eq_repr, Nat.toList_repr, Nat.toList_repr] at same
  have values := congrArg (Nat.ofDigitChars 10 · 0) same
  simpa using values

theorem toInt_counter {connection : Nat} (small : connection + 1 < 2 ^ 31) :
    (BitVec.ofNat 32 (connection + 1)).toInt = ((connection + 1 : Nat) : Int) := by
  rw [BitVec.toInt_eq_toNat_of_lt (by rw [BitVec.toNat_ofNat]; omega), BitVec.toNat_ofNat,
    Nat.mod_eq_of_lt (by omega)]

theorem idText_of_few {hostport : String} {connection : Nat} (small : connection + 1 < 2 ^ 31)
    (room : hostport.length < 29) (few : connection + 1 < 10 ^ (29 - hostport.length)) :
    idText hostport connection = (toString (connection + 1)).toList := by
  have digits : (toString (connection + 1)).toList.length ≤ 29 - hostport.length := by
    rw [Nat.toString_eq_repr, Nat.toList_repr]
    exact (Nat.length_toDigits_le_iff (by decide) (by omega)).mpr few
  rw [idText, toInt_counter small]
  exact List.take_of_length_le digits

/-! ## The map -/

/-- The keys of live connections lead to them, and no other key leads to a connection. -/
structure Consistent (server : ServerNames) : Prop where
  counter : server.nextConnId = BitVec.ofNat 32 (server.names.length + 1)
  named : ∀ connection name, server.names[connection]? = some name →
    name = nameOf server.name server.hostport connection
  accepted : ∀ connection ∈ server.live, connection < server.names.length
  own : ∀ connection ∈ server.live,
    server.connections (nameOf server.name server.hostport connection) = some (some connection)
  entry : ∀ key connection, server.connections key = some (some connection) →
    connection ∈ server.live ∧ key = nameOf server.name server.hostport connection

theorem create_consistent (name hostport : String) : (create name hostport).Consistent where
  counter := rfl
  named _ _ given := by cases given
  accepted _ member := by cases member
  own _ member := by cases member
  entry _ _ found := by cases found

namespace Consistent

variable {server : ServerNames} (consistent : server.Consistent)

include consistent

theorem connName_eq :
    server.connName = nameOf server.name server.hostport server.names.length := by
  rw [connName, consistent.counter, nameOf]

theorem free_iff (connection : Nat) :
    (∀ other, server.connections (nameOf server.name server.hostport connection) ≠
        some (some other)) ↔
      ∀ other ∈ server.live,
        idText server.hostport other ≠ idText server.hostport connection := by
  constructor
  · intro free other member same
    rw [← nameOf_eq_iff server.name] at same
    have own := consistent.own other member
    rw [same] at own
    exact free other own
  · intro differ other found
    rcases consistent.entry _ _ found with ⟨member, same⟩
    rw [nameOf_eq_iff] at same
    exact differ other member same.symm

theorem right_iff (label : NameLabel) : server.Right label ↔ server.IdsDiffer label := by
  cases label with
  | newConnection =>
      rw [Right, consistent.connName_eq]
      exact consistent.free_iff server.names.length
  | stop => exact Iff.rfl
  | removeConnectionInLoop connection =>
      rw [Right, IdsDiffer]
      by_cases inside : connection < server.names.length
      · have given := List.getElem?_eq_getElem inside
        have name := consistent.named connection _ given
        by_cases member : connection ∈ server.live
        · have own := consistent.own connection member
          apply iff_of_true
          · intro other givenOther
            rw [given, name] at givenOther
            cases givenOther
            constructor
            · intro _
              exact own
            · intro other found
              rw [own] at found
              cases found
              rfl
          · intro _ notMember
            exact absurd member notMember
        · have free := consistent.free_iff connection
          have absent : ∀ other, server.connections (nameOf server.name server.hostport
              connection) = some (some other) → other ≠ connection := by
            intro other found same
            rw [same] at found
            exact member (consistent.entry _ _ found).1
          constructor
          · intro right _ _
            apply free.mp
            intro other found
            rw [← name] at found absent
            exact absent other found ((right _ given).2 other found)
          · intro differ other givenOther
            rw [given, name] at givenOther
            cases givenOther
            constructor
            · intro live
              exact absurd live member
            · intro other found
              exact absurd found (free.mpr (differ inside member) other)
      · apply iff_of_true
        · intro name given
          rw [List.getElem?_eq_none (by omega)] at given
          cases given
        · intro accepted
          exact absurd accepted inside

theorem newConnection_consistent (differ : server.IdsDiffer .newConnection) :
    server.newConnection.Consistent := by
  have otherName : ∀ connection ∈ server.live,
      nameOf server.name server.hostport connection ≠ server.connName := by
    intro connection member
    rw [consistent.connName_eq, ne_eq, nameOf_eq_iff]
    exact differ connection member
  constructor
  · simp only [newConnection, List.length_append, List.length_singleton]
    rw [consistent.counter, BitVec.ofNat_add (server.names.length + 1) 1]
    rfl
  · intro connection name given
    simp only [newConnection] at given ⊢
    by_cases earlier : connection < server.names.length
    · rw [List.getElem?_append_left earlier] at given
      exact consistent.named connection name given
    · rw [List.getElem?_append_right (by omega)] at given
      have last : connection = server.names.length := by
        have inside := (List.getElem?_eq_some_iff.mp given).1
        simp only [List.length_singleton] at inside
        omega
      subst last
      simp only [Nat.sub_self, List.getElem?_cons_zero, Option.some.injEq] at given
      rw [← given, consistent.connName_eq]
  · intro connection member
    simp only [newConnection, List.mem_cons, List.length_append, List.length_singleton] at member ⊢
    rcases member with rfl | earlier
    · omega
    · have accepted := consistent.accepted connection earlier
      omega
  · intro connection member
    simp only [newConnection, List.mem_cons] at member ⊢
    rcases member with rfl | earlier
    · rw [← consistent.connName_eq, Function.update_self]
    · rw [Function.update_of_ne (otherName connection earlier)]
      exact consistent.own connection earlier
  · intro key connection found
    simp only [newConnection] at found ⊢
    by_cases new : key = server.connName
    · rw [new, Function.update_self] at found
      cases found
      exact ⟨List.mem_cons_self, new.trans consistent.connName_eq⟩
    · rw [Function.update_of_ne new] at found
      rcases consistent.entry key connection found with ⟨member, name⟩
      exact ⟨List.mem_cons_of_mem _ member, name⟩

theorem stop_consistent : server.stop.Consistent where
  counter := consistent.counter
  named := consistent.named
  accepted _ member := by cases member
  own _ member := by cases member
  entry key connection found := by
    rcases Option.map_eq_some_iff.mp found with ⟨_, _, reset⟩
    cases reset

theorem removeConnectionInLoop_consistent {next : ServerNames} {connection : Nat}
    (right : server.Right (.removeConnectionInLoop connection))
    (removed : server.removeConnectionInLoop connection = some next) : next.Consistent := by
  rcases Option.map_eq_some_iff.mp removed with ⟨name, given, rfl⟩
  have own := consistent.named connection name given
  -- the entry that is erased is no other live connection's
  have otherName : ∀ other ∈ server.live, other ≠ connection →
      nameOf server.name server.hostport other ≠ name := by
    intro other member different same
    have entry := consistent.own other member
    rw [same] at entry
    exact different ((right name given).2 other entry)
  constructor
  · exact consistent.counter
  · exact consistent.named
  · intro other member
    exact consistent.accepted other (List.mem_of_mem_filter member)
  · intro other member
    simp only [List.mem_filter, decide_eq_true_eq] at member
    dsimp only
    rw [Function.update_of_ne (otherName other member.1 member.2)]
    exact consistent.own other member.1
  · intro key other found
    dsimp only at found ⊢
    by_cases erased : key = name
    · rw [erased, Function.update_self] at found
      cases found
    · rw [Function.update_of_ne erased] at found
      rcases consistent.entry key other found with ⟨member, keyName⟩
      have different : other ≠ connection := by
        intro same
        rw [same] at keyName
        exact erased (keyName.trans own.symm)
      exact ⟨List.mem_filter.mpr ⟨member, by simpa using different⟩, keyName⟩

theorem step_consistent {label : NameLabel} {next : ServerNames}
    (differ : server.IdsDiffer label) (taken : server.step label = some next) :
    next.Consistent := by
  cases label with
  | newConnection =>
      cases taken
      exact consistent.newConnection_consistent differ
  | removeConnectionInLoop connection =>
      exact consistent.removeConnectionInLoop_consistent ((consistent.right_iff _).mpr differ) taken
  | stop =>
      cases taken
      exact consistent.stop_consistent

end Consistent

theorem runPermits_right_iff {server : ServerNames} (consistent : server.Consistent)
    (labels : List NameLabel) :
    Machine.RunPermits step Right server labels ↔
      Machine.RunPermits step IdsDiffer server labels :=
  Machine.runPermits_congr (fun _ label known => Consistent.right_iff known label)
    (fun _ _ _ known differ taken => Consistent.step_consistent known differ taken)
    consistent labels

/-- Over the life of a server its names are right exactly when the counters differ, in what
fits of them, wherever a connection is accepted, or removed when it is not live. -/
theorem right_iff_idsDiffer (name hostport : String) (labels : List NameLabel) :
    Machine.RunPermits step Right (create name hostport) labels ↔
      Machine.RunPermits step IdsDiffer (create name hostport) labels :=
  runPermits_right_iff (create_consistent name hostport) labels

/-! ## How many connections have different names -/

theorem idsDiffer_of_few {server : ServerNames} (consistent : server.Consistent)
    (room : server.hostport.length < 29) {labels : List NameLabel}
    (small : server.names.length + labels.count .newConnection < 2 ^ 31)
    (few : server.names.length + labels.count .newConnection <
      10 ^ (29 - server.hostport.length)) :
    Machine.RunPermits step IdsDiffer server labels := by
  induction labels generalizing server with
  | nil => trivial
  | cons label labels induction =>
      have differ : ∀ {left right : Nat},
          left + 1 ≤ server.names.length + (label :: labels).count .newConnection →
          right + 1 ≤ server.names.length + (label :: labels).count .newConnection →
          left ≠ right → idText server.hostport left ≠ idText server.hostport right := by
        intro left right leftKnown rightKnown different same
        rw [idText_of_few (by omega) room (by omega),
          idText_of_few (by omega) room (by omega)] at same
        exact different (Nat.succ.inj (toString_toList_inj same))
      have permitted : server.IdsDiffer label := by
        cases label with
        | newConnection =>
            intro other member
            have accepted := consistent.accepted other member
            rw [List.count_cons_self] at differ
            exact differ (by omega) (by omega) (by omega)
        | removeConnectionInLoop connection =>
            intro inside notMember other member
            have accepted := consistent.accepted other member
            have different : other ≠ connection := by
              intro same
              rw [same] at member
              exact notMember member
            exact differ (by omega) (by omega) different
        | stop => trivial
      constructor
      · exact permitted
      · intro next taken
        have kept := consistent.step_consistent permitted taken
        cases label with
        | newConnection =>
            cases taken
            rw [List.count_cons_self] at small few
            apply induction kept room
            · simp only [newConnection, List.length_append, List.length_singleton]
              omega
            · simp only [newConnection, List.length_append, List.length_singleton]
              omega
        | removeConnectionInLoop connection =>
            rcases Option.map_eq_some_iff.mp taken with ⟨_, _, rfl⟩
            have other : NameLabel.removeConnectionInLoop connection ≠ .newConnection := nofun
            rw [List.count_cons_of_ne other] at small few
            exact induction kept room small few
        | stop =>
            cases taken
            rw [List.count_cons_of_ne (by decide)] at small few
            exact induction kept room small few

theorem length_toString_byte_le (byte : UInt8) : (toString byte.toNat).length ≤ 3 := by
  have bound := byte.toNat_lt
  exact (Nat.length_repr_le_iff (by decide)).mpr (by omega)

theorem length_toIpPort_le (a b c d : UInt8) (port : UInt16) :
    (toIpPort a b c d port).length ≤ 21 := by
  have first := length_toString_byte_le a
  have second := length_toString_byte_le b
  have third := length_toString_byte_le c
  have fourth := length_toString_byte_le d
  have bound := port.toNat_lt
  have last : (toString port.toNat).length ≤ 5 :=
    (Nat.length_repr_le_iff (by decide)).mpr (by omega)
  have dot : ".".length = 1 := rfl
  have colon : ":".length = 1 := rfl
  simp only [toIpPort, String.length_append, dot, colon]
  omega

/-- Whatever the address, a server can accept any number of connections below `10 ^ 8`. -/
theorem right_of_few (name : String) (a b c d : UInt8) (port : UInt16) {labels : List NameLabel}
    (few : labels.count .newConnection < 10 ^ 8) :
    Machine.RunPermits step Right (create name (toIpPort a b c d port)) labels := by
  have short := length_toIpPort_le a b c d port
  have room : 10 ^ 8 ≤ 10 ^ (29 - (toIpPort a b c d port).length) :=
    Nat.pow_le_pow_right (by decide) (by omega)
  have start : (create name (toIpPort a b c d port)).names.length = 0 := rfl
  rw [runPermits_right_iff (create_consistent name _)]
  apply idsDiffer_of_few (create_consistent name _)
  · change (toIpPort a b c d port).length < 29
    omega
  · rw [start]
    omega
  · change 0 + _ < 10 ^ (29 - (toIpPort a b c d port).length)
    omega

/-! ## When they run out -/

theorem accept_many (server : ServerNames) (count : Nat) :
    ∃ last, Machine.runPartial step server (List.replicate count .newConnection) = some last ∧
      last.hostport = server.hostport ∧ last.names.length = server.names.length + count ∧
      (∀ connection ∈ server.live, connection ∈ last.live) ∧
      ∀ index < count, server.names.length + index ∈ last.live := by
  induction count generalizing server with
  | zero =>
      exact ⟨server, rfl, rfl, rfl, fun _ member => member, nofun⟩
  | succ count induction =>
      rcases induction server.newConnection with ⟨last, run, sameHost, counted, kept, added⟩
      have length : server.newConnection.names.length = server.names.length + 1 := by
        simp [newConnection]
      rw [length] at counted added
      refine ⟨last, run, sameHost, by omega, ?_, ?_⟩
      · intro connection member
        exact kept connection (List.mem_cons_of_mem _ member)
      · intro index inside
        cases index with
        | zero => exact kept _ List.mem_cons_self
        | succ index =>
            have shifted : server.names.length + (index + 1) =
                server.names.length + 1 + index := by
              omega
            rw [shifted]
            exact added index (by omega)

/-- At an address of 21 characters the counters `10000000` and `100000000` give one name. -/
theorem names_collide :
    ¬ Machine.RunPermits step Right (create "server" (toIpPort 192 168 100 100 10000))
      (List.replicate (10 ^ 8) .newConnection) := by
  intro right
  rw [runPermits_right_iff (create_consistent _ _)] at right
  have split : List.replicate (10 ^ 8) NameLabel.newConnection =
      List.replicate (10 ^ 8 - 1) .newConnection ++ [.newConnection] :=
    List.replicate_succ'
  rcases accept_many (create "server" (toIpPort 192 168 100 100 10000)) (10 ^ 8 - 1) with
    ⟨last, run, sameHost, counted, _, added⟩
  have start : (create "server" (toIpPort 192 168 100 100 10000)).names.length = 0 := rfl
  have member := added (10 ^ 7 - 1) (by decide)
  rw [start, Nat.zero_add] at counted member
  rw [split] at right
  have differ := (right.behind run).1 (10 ^ 7 - 1) member
  rw [sameHost, counted] at differ
  have same : idText (toIpPort 192 168 100 100 10000) (10 ^ 7 - 1) =
      idText (toIpPort 192 168 100 100 10000) (10 ^ 8 - 1) := by
    decide +kernel
  exact differ same

end ServerNames

/-- While the counter has not wrapped, the model of the server gives the same names. -/
theorem TcpServer.connName_eq_nameOf (server : TcpServer) {connection : Nat}
    (counter : server.nextConnId = connection + 1) (small : connection + 1 < 2 ^ 31) :
    server.connName = ServerNames.nameOf server.name server.hostport connection := by
  rw [TcpServer.connName, ServerNames.nameOf, counter, ServerNames.toInt_counter small]
  rfl

end MyBookSources.Net
