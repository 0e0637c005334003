import MyBookSources.Net.ServerRemoval

/-! # Stopping the server

When `stop` comes to the loops of the pool, `connections_` holds no connection any
more, and a connection that is added later never runs. So a removal that is still
under way finds its loop running, unless its entry was reset.
-/

namespace MyBookSources.Net

namespace EventLoop

variable {Task : Type} {loop : EventLoop Task}

theorem hasReturned_iff : loop.hasReturned = true ↔ loop.phase = .returned := by
  cases phase : loop.phase with
  | returned => simp [hasReturned, phase]
  | _ => simp [hasReturned, phase]

theorem hasReturned_of_isLooping (looping : loop.phase.isLooping = true) :
    loop.hasReturned = false := by
  apply Bool.eq_false_iff.mpr
  intro returned
  rw [hasReturned_iff.mp returned] at looping
  cases looping

theorem Acts.not_returned {action : LoopAction} {next : EventLoop Task}
    (acts : loop.Acts action next) : loop.hasReturned = false := by
  apply Bool.eq_false_iff.mpr
  intro returned
  have last := hasReturned_iff.mp returned
  cases acts with
  | enter phase | leave phase _ | goOn phase _ | handle phase | swap phase | call _ _ phase
  | back _ phase | finish phase | frame phase =>
      rw [last] at phase
      cases phase

theorem Acts.keeps_running {action : LoopAction} {next : EventLoop Task}
    (acts : loop.Acts action next) (running : loop.quit = false) :
    next.quit = false ∧ next.hasReturned = false := by
  cases acts with
  | leave phase quit =>
      rw [running] at quit
      cases quit
  | enter phase => exact ⟨rfl, rfl⟩
  | _ => exact ⟨running, rfl⟩

end EventLoop

namespace StopPhase

/-- `stop` has joined the thread of the loop. -/
def hasJoined (loop : Nat) : StopPhase → Bool
  | .joining current _ => loop < current
  | .stopped => true
  | _ => false

end StopPhase

namespace TcpServer

/-- Where the loops and `stop` are. -/
structure Scheduled (server : TcpServer) : Prop where
  turn : server.numThreads = 0 ∨ server.next < server.numThreads
  quiet : ∀ id connection, server.created id = some connection →
    connection.config.Quiet ∨ (server.loops connection.loop).phase.isLooping = true
  running : server.stopPhase.hasWalked = false → ∀ loop, 1 ≤ loop →
    (server.loops loop).quit = false ∧ (server.loops loop).hasReturned = false
  joined : ∀ loop, 1 ≤ loop → loop ≤ server.numThreads →
    server.stopPhase.hasJoined loop = true → (server.loops loop).hasReturned = true
  late : server.stopPhase.hasWalked = true → ∀ id connection,
    server.created id = some connection →
    server.connections connection.name = some (some id) → connection.loop ≠ 0 →
    (server.loops connection.loop).hasReturned = true ∧ connection.config.stack = [] ∧
      connection.config.closes = 0
  alive : ∀ posting ∈ server.posted, posting.exited = false

variable {server next : TcpServer} {platform : Platform}

theorem create_scheduled (name hostport : String) (numThreads : Nat) :
    (create name hostport numThreads).Scheduled where
  turn := Nat.eq_zero_or_pos numThreads
  quiet _ _ here := by cases here
  running _ _ _ := ⟨rfl, rfl⟩
  joined _ _ _ joined := by cases joined
  late _ _ _ here := by cases here
  alive _ member := by cases member

/-! ## What the operations do -/

theorem Scheduled.setLoop (scheduled : server.Scheduled) (loop : Nat)
    (state : EventLoop ServerFunctor)
    (quiet : ∀ id connection, server.created id = some connection → connection.loop = loop →
      connection.config.Quiet ∨ state.phase.isLooping = true)
    (running : server.stopPhase.hasWalked = false → 1 ≤ loop →
      state.quit = false ∧ state.hasReturned = false)
    (returned : (server.loops loop).hasReturned = true → state.hasReturned = true) :
    (server.setLoop loop state).Scheduled := by
  have loops (other : Nat) : (server.setLoop loop state).loops other =
      if other = loop then state else server.loops other := Function.update_apply ..
  constructor
  · exact scheduled.turn
  · intro id connection here
    rw [loops]
    split
    · next same => exact quiet id connection here same
    · exact scheduled.quiet id connection here
  · intro walking other pool
    rw [loops]
    split
    · next same => exact running walking (same ▸ pool)
    · exact scheduled.running walking other pool
  · intro other pool bound joined
    have before := scheduled.joined other pool bound joined
    rw [loops]
    split
    · next same => exact returned (same ▸ before)
    · exact before
  · intro walked id connection here mapped pool
    have before := scheduled.late walked id connection here mapped pool
    rw [loops]
    split
    · next same => exact ⟨returned (same ▸ before.1), before.2⟩
    · exact before
  · exact scheduled.alive

theorem Accounted.stack_of_idle (accounted : server.Accounted) {loop id : Nat}
    (idle : server.idle loop = true) {connection : ServerConnection}
    (here : server.created id = some connection) (lives : connection.loop = loop) :
    connection.config.stack = [] := by
  have checked := List.all_eq_true.mp idle id (List.mem_range.mpr (accounted.born here))
  simpa [here, lives] using checked

theorem Accounted.quiet_of_idle (accounted : server.Accounted) {loop id : Nat}
    (idle : server.idle loop = true) {connection : ServerConnection}
    (here : server.created id = some connection) (lives : connection.loop = loop) :
    connection.config.Quiet := by
  intro call member
  rw [accounted.stack_of_idle idle here lives] at member
  cases member

theorem idle_of_free {loop : Nat} (alone : server.free loop = true) :
    server.idle loop = true :=
  ((Bool.and_eq_true _ _).mp alone).1

theorem Scheduled.act (scheduled : server.Scheduled) (accounted : server.Accounted)
    {loop : Nat} {action : LoopAction} {state : EventLoop ServerFunctor}
    (acts : (server.loops loop).Acts action state) (idle : server.idle loop = true) :
    (server.setLoop loop state).Scheduled := by
  apply scheduled.setLoop
  · intro id connection here lives
    exact .inl (accounted.quiet_of_idle idle here lives)
  · intro walking pool
    exact acts.keeps_running (scheduled.running walking loop pool).1
  · intro returned
    rw [acts.not_returned] at returned
    cases returned

theorem Scheduled.setLoop_samePhase (scheduled : server.Scheduled) (loop : Nat)
    {state : EventLoop ServerFunctor} (phase : state.phase = (server.loops loop).phase)
    (quit : state.quit = (server.loops loop).quit ∨ loop = 0 ∨
      server.stopPhase.hasWalked = true) : (server.setLoop loop state).Scheduled := by
  have returned : state.hasReturned = (server.loops loop).hasReturned := by
    simp only [EventLoop.hasReturned, phase]
  apply scheduled.setLoop
  · intro id connection here lives
    rw [phase, ← lives]
    exact scheduled.quiet id connection here
  · intro walking pool
    have before := scheduled.running walking loop pool
    rw [returned]
    rcases quit with same | base | walked
    · rw [same]
      exact before
    · omega
    · rw [walking] at walked
      cases walked
  · intro before
    rw [returned]
    exact before

theorem Scheduled.queueInLoop (scheduled : server.Scheduled) (loop : Nat)
    (functor : ServerFunctor) : (server.queueInLoop loop functor).Scheduled :=
  scheduled.setLoop_samePhase loop rfl (.inl rfl)

theorem Scheduled.setConfig (scheduled : server.Scheduled) {id : Nat}
    {connection : ServerConnection} {config : Config}
    (here : server.created id = some connection)
    (quiet : config.Quiet ∨ (server.loops connection.loop).phase.isLooping = true)
    (moving : connection.loop = 0 ∨ connection.config.stack ≠ [] ∨
      (server.loops connection.loop).hasReturned = false) :
    (server.setConfig id connection config).Scheduled := by
  constructor
  · exact scheduled.turn
  · intro other found there
    rcases created_setConfig there with ⟨rfl, rfl⟩ | before
    · exact quiet
    · exact scheduled.quiet other found before
  · exact scheduled.running
  · exact scheduled.joined
  · intro walked other found there mapped pool
    rcases created_setConfig there with ⟨rfl, rfl⟩ | before
    · have late := scheduled.late walked other connection here mapped pool
      rcases moving with base | running | runs
      · exact absurd base pool
      · exact absurd late.2.1 running
      · rw [runs] at late
        cases late.1
    · exact scheduled.late walked other found before mapped pool
  · exact scheduled.alive

theorem Scheduled.settle (scheduled : server.Scheduled) (key : String)
    {entry : Option (Option Nat)} (empty : ∀ id, entry ≠ some (some id)) {posting : Posting}
    (alive : posting.exited = false) :
    (server.settle key entry server.loops posting).Scheduled where
  turn := scheduled.turn
  quiet := scheduled.quiet
  running := scheduled.running
  joined := scheduled.joined
  late walked id connection here mapped pool := by
    apply scheduled.late walked id connection here _ pool
    simp only [TcpServer.settle, Function.update_apply] at mapped
    split at mapped
    · exact absurd mapped (empty id)
    · exact mapped
  alive other member := by
    change other ∈ server.posted ++ [posting] at member
    rw [List.mem_append, List.mem_singleton] at member
    rcases member with earlier | rfl
    · exact scheduled.alive other earlier
    · exact alive

theorem Scheduled.add (scheduled : server.Scheduled) {loop : Nat} {endpoint : Endpoint}
    (late : server.stopPhase.hasWalked = true → loop ≠ 0 →
      (server.loops loop).hasReturned = true) :
    (server.addConnection loop endpoint).Scheduled := by
  constructor
  · exact scheduled.turn
  · intro id found there
    rcases created_addConnection there with ⟨_, rfl⟩ | ⟨_, before⟩
    · apply Or.inl
      intro call member
      cases member
    · exact scheduled.quiet id found before
  · exact scheduled.running
  · exact scheduled.joined
  · intro walked id found there mapped pool
    rcases created_addConnection there with ⟨_, rfl⟩ | ⟨different, before⟩
    · exact ⟨late walked pool, rfl, rfl⟩
    · apply scheduled.late walked id found before _ pool
      simp only [addConnection, Function.update_apply] at mapped
      split at mapped
      · exact absurd (Option.some.inj (Option.some.inj mapped)).symm different
      · exact mapped
  · exact scheduled.alive

/-- A connection moves on a loop that is looping, or makes calls that do not lead to a
close where the thread is in the middle of something. -/
theorem Scheduled.stepConnection (scheduled : server.Scheduled) {id : Nat} {label : Label}
    {connection : ServerConnection} (here : server.created id = some connection)
    (taken : server.stepConnection platform id label = some next)
    (place : (server.loops connection.loop).phase.isLooping = true ∨
      ((∀ call, label = .enter call → call.isQuiet = true) ∧ label ≠ .dispatch) ∧
        (connection.loop = 0 ∨ connection.config.stack ≠ [])) : next.Scheduled := by
  rcases stepConnection_moves taken with ⟨same, config, there, moves, rfl⟩
  rw [here] at there
  cases there
  apply scheduled.setConfig here
  · rcases place with looping | ⟨calls, _⟩
    · exact .inr looping
    · rcases scheduled.quiet id connection here with quiet | looping
      · exact .inl (moves.quiet quiet calls.1 calls.2)
      · exact .inr looping
  · rcases place with looping | ⟨_, base | running⟩
    · exact .inr (.inr (EventLoop.hasReturned_of_isLooping looping))
    · exact .inl base
    · exact .inr (.inl running)

theorem Scheduled.enter (scheduled : server.Scheduled) {loop id : Nat} {call : Call}
    (taken : server.enter platform loop id call = some next)
    (place : (server.loops loop).phase.isLooping = true ∨ call.isQuiet = true ∧ loop = 0) :
    next.Scheduled := by
  rcases enter_eq taken with ⟨moved, connection, here, lives⟩
  apply scheduled.stepConnection here moved
  rw [lives]
  rcases place with looping | ⟨quiet, base⟩
  · exact .inl looping
  · apply Or.inr
    refine ⟨⟨?_, by simp⟩, .inl base⟩
    intro other entered
    cases entered
    exact quiet

theorem Scheduled.remove (scheduled : server.Scheduled) {id : Nat}
    {connection : ServerConnection} (here : server.created id = some connection)
    (mapped : server.connections connection.name = some (some id))
    (alive : (server.loops connection.loop).hasReturned = false) :
    (server.removeConnectionInLoop id).Scheduled := by
  rw [removeConnectionInLoop_eq here mapped]
  exact (scheduled.queueInLoop connection.loop (.connectDestroyed id)).settle _ (by simp) alive

theorem Scheduled.looping_of_closing (scheduled : server.Scheduled) {id : Nat}
    {connection : ServerConnection} (here : server.created id = some connection)
    {rest : List Call} (top : connection.config.stack = .closeCallback :: rest) :
    (server.loops connection.loop).phase.isLooping = true := by
  rcases scheduled.quiet id connection here with quiet | looping
  · have close := quiet .closeCallback (by simp [top])
    cases close
  · exact looping

theorem Scheduled.close (scheduled : server.Scheduled) (accounted : server.Accounted) {id : Nat}
    (taken : server.close platform id = some next) (closing : server.closing id = true)
    (kept : ∀ connection, server.created id = some connection → connection.loop = 0 →
      server.connections connection.name ≠ some none) : next.Scheduled := by
  rcases close_moves taken closing with
    ⟨connection, config, rest, here, lifecycle, closes, top, rfl⟩
  have looping := scheduled.looping_of_closing here top
  have owed := accounted.owed_of_close here
    (lifecycle (accounted.lifecycle id connection here)) closes
  have closed : (server.setConfig id connection config).Scheduled :=
    scheduled.setConfig here (.inr looping) (.inr (.inl (by simp [top])))
  rw [removeConnection_eq owed.created]
  split
  · next base =>
      apply closed.remove owed.created (owed.held (kept connection here base)).1
      exact EventLoop.hasReturned_of_isLooping looping
  · exact closed.queueInLoop 0 _

theorem Scheduled.call (scheduled : server.Scheduled) (accounted : server.Accounted)
    {loop : Nat} {functor : ServerFunctor} {functors : List ServerFunctor}
    (alone : server.free loop = true)
    (phase : (server.loops loop).phase = .between (functor :: functors))
    (called : (server.setLoop loop
      { server.loops loop with phase := .calling functors }).callFunctor platform loop functor =
        some next) (finds : server.FindsEntries (.call loop)) : next.Scheduled := by
  have acts : (server.loops loop).Acts .call
      { server.loops loop with phase := .calling functors } := .call functor functors phase
  have popped := scheduled.act accounted acts (idle_of_free alone)
  have looping : ((server.setLoop loop
      { server.loops loop with phase := .calling functors }).loops loop).phase.isLooping =
      true := by
    simp only [TcpServer.setLoop, Function.update_self]
    rfl
  cases functor with
  | connectEstablished id => exact popped.enter called (.inl looping)
  | connectDestroyed id => exact popped.enter called (.inl looping)
  | removeConnectionInLoop id =>
      simp only [callFunctor] at called
      split at called
      · next base =>
          cases called
          cases base
          rcases accounted.owed_of_call phase with ⟨connection, owed⟩
          have kept : server.connections connection.name ≠ some none := by
            apply finds.kept owed.created
            simp only [removing, EventLoop.nextFunctor, phase]
          have mapped := (owed.held kept).1
          apply popped.remove owed.created mapped
          by_cases base : connection.loop = 0
          · rw [base]
            exact EventLoop.hasReturned_of_isLooping looping
          · cases walked : server.stopPhase.hasWalked with
            | true =>
                -- added after the walk: never run, so never closed
                have late := popped.late walked id connection owed.created mapped base
                have unpaid := owed.unpaid
                omega
            | false => exact (popped.running walked connection.loop (by omega)).2
      · cases called

theorem getNextLoop_bounds (turn : server.numThreads = 0 ∨ server.next < server.numThreads) :
    server.getNextLoop.1 ≤ server.numThreads ∧
      (server.numThreads = 0 ∨ server.getNextLoop.2.next < server.numThreads) := by
  simp only [getNextLoop]
  split
  · next none => exact ⟨Nat.zero_le _, .inl none⟩
  · next some =>
      constructor
      · dsimp only
        omega
      · dsimp only
        split
        · omega
        · omega

theorem looping_of_isHandling {loop : Nat} (handling : (server.loops loop).isHandling = true) :
    (server.loops loop).phase.isLooping = true := by
  cases phase : (server.loops loop).phase with
  | handling => rfl
  | _ => simp [EventLoop.isHandling, phase] at handling

theorem Scheduled.newConnection (scheduled : server.Scheduled) {endpoint : Endpoint}
    (alone : server.free 0 = true) (handling : (server.loops 0).isHandling = true)
    (taken : server.newConnection platform endpoint = some next) : next.Scheduled := by
  rcases getNextLoop_eq with ⟨turn, chosen⟩
  have bounds := getNextLoop_bounds scheduled.turn
  simp only [TcpServer.newConnection] at taken
  rw [chosen] at taken bounds
  have before : ({ server with next := turn } : TcpServer).Scheduled :=
    ⟨bounds.2, scheduled.quiet, scheduled.running, scheduled.joined, scheduled.late,
      scheduled.alive⟩
  have added : (({ server with next := turn } : TcpServer).addConnection
      server.getNextLoop.1 endpoint).Scheduled := by
    apply before.add
    intro walked pool
    have idle := ((Bool.and_eq_true _ _).mp alone).2
    apply scheduled.joined server.getNextLoop.1 (by omega) bounds.1
    cases stopPhase : server.stopPhase with
    | stopped => rfl
    | running =>
        change server.stopPhase.hasWalked = true at walked
        rw [stopPhase] at walked
        cases walked
    | walking => simp [stopPhase, StopPhase.isBusy] at idle
    | joining loop asked => simp [stopPhase, StopPhase.isBusy] at idle
  simp only [establish] at taken
  split at taken
  · exact added.enter taken (.inl (looping_of_isHandling handling))
  · cases taken
    exact added.queueInLoop _ _

theorem Scheduled.destroy (scheduled : server.Scheduled) (accounted : server.Accounted)
    {key : String} (walking : server.stopPhase = .walking)
    (taken : server.destroy platform key = some next) : next.Scheduled := by
  rcases accounted.destroy_cases taken with
    ⟨id, connection, here, _, mapped, ⟨base, entered⟩ | ⟨pool, rfl⟩⟩
  · have settled : (server.settle connection.name (some none) server.loops
        ⟨id, false⟩).Scheduled := scheduled.settle _ (by simp) rfl
    exact settled.enter entered (.inr ⟨rfl, rfl⟩)
  · have alive := (scheduled.running (by rw [walking]; rfl) connection.loop (by omega)).2
    exact (scheduled.queueInLoop connection.loop (.connectDestroyed id)).settle _ (by simp)
      alive

theorem not_mapped_of_allReset (accounted : server.Accounted) (reset : server.allReset = true)
    {id : Nat} {connection : ServerConnection} (here : server.created id = some connection) :
    server.connections connection.name ≠ some (some id) := by
  have checked := List.all_eq_true.mp reset id (List.mem_range.mpr (accounted.born here))
  simpa [here] using checked

theorem hasWalked_stopFrom (server : TcpServer) (loop : Nat) :
    (server.stopFrom loop).hasWalked = true := by
  rw [stopFrom]
  split
  · rfl
  · rfl

theorem lt_of_hasJoined_stopFrom {loop other : Nat} (bound : other ≤ server.numThreads)
    (joined : (server.stopFrom loop).hasJoined other = true) : other < loop := by
  rw [stopFrom] at joined
  split at joined
  · exact of_decide_eq_true joined
  · omega

theorem Scheduled.endWalk (scheduled : server.Scheduled) (accounted : server.Accounted)
    (reset : server.allReset = true) :
    ({ server with stopPhase := server.stopFrom 1 } : TcpServer).Scheduled where
  turn := scheduled.turn
  quiet := scheduled.quiet
  running walking := by
    rw [hasWalked_stopFrom] at walking
    cases walking
  joined loop pool bound joined := by
    have earlier : loop < 1 := lt_of_hasJoined_stopFrom bound joined
    omega
  late _ id connection here mapped :=
    absurd mapped (not_mapped_of_allReset accounted reset here)
  alive := scheduled.alive

theorem Scheduled.joinLoop (scheduled : server.Scheduled) {loop : Nat}
    (joining : server.stopPhase = .joining loop true)
    (returned : (server.loops loop).hasReturned = true) :
    ({ server with stopPhase := server.stopFrom (loop + 1) } : TcpServer).Scheduled where
  turn := scheduled.turn
  quiet := scheduled.quiet
  running walking := by
    rw [hasWalked_stopFrom] at walking
    cases walking
  joined other pool bound joined := by
    have upTo : other < loop + 1 := lt_of_hasJoined_stopFrom bound joined
    by_cases last : other = loop
    · rw [last]
      exact returned
    · apply scheduled.joined other pool bound
      rw [joining]
      simp only [StopPhase.hasJoined, decide_eq_true_eq]
      omega
  late _ := scheduled.late (by rw [joining]; rfl)
  alive := scheduled.alive

theorem Scheduled.quitLoop (scheduled : server.Scheduled) {loop : Nat}
    (joining : server.stopPhase = .joining loop false) :
    ({ server.setLoop loop (server.loops loop).askToQuit with
      stopPhase := .joining loop true } : TcpServer).Scheduled := by
  have asked : (server.setLoop loop (server.loops loop).askToQuit).Scheduled :=
    scheduled.setLoop_samePhase loop rfl (.inr (.inr (by rw [joining]; rfl)))
  have place : (server.setLoop loop (server.loops loop).askToQuit).stopPhase =
      .joining loop false := joining
  constructor
  · exact asked.turn
  · exact asked.quiet
  · intro walking
    cases walking
  · intro other pool bound joined
    apply asked.joined other pool bound
    rw [place]
    exact joined
  · intro _
    apply asked.late
    rw [place]
    rfl
  · exact asked.alive

theorem looping_of_isBetween {loop : Nat} (between : (server.loops loop).isBetween = true) :
    (server.loops loop).phase.isLooping = true := by
  cases phase : (server.loops loop).phase with
  | between functors => rfl
  | _ => simp [EventLoop.isBetween, phase] at between

theorem looping_of_runsCallbacks {loop : Nat} (runs : server.runsCallbacks loop = true) :
    (server.loops loop).phase.isLooping = true ∨ loop = 0 := by
  simp only [runsCallbacks, EventLoop.inCallback, Bool.or_eq_true, Bool.and_eq_true,
    beq_iff_eq] at runs
  rcases runs with looping | stopping
  · exact .inl looping.1
  · exact .inr stopping.1

theorem stack_ne_nil_of_advance {config after : Config} {label : Label}
    (moves : config.Moves platform label after) (calls : ∀ call, label ≠ .enter call)
    (other : label ≠ .dispatch) : config.stack ≠ [] := by
  cases moves with
  | enter call idle entry => exact absurd rfl (calls call)
  | advance ctl call rest stack running => simp [stack]
  | leave rest stack => simp [stack]
  | dispatch functor others stack => exact absurd rfl other

theorem Scheduled.goOn (scheduled : server.Scheduled) {id : Nat} {label : Label}
    (taken : server.stepConnection platform id label = some next)
    (calls : ∀ call, label ≠ .enter call) (other : label ≠ .dispatch) : next.Scheduled := by
  rcases stepConnection_moves taken with ⟨connection, config, here, moves, _⟩
  apply scheduled.stepConnection here taken
  apply Or.inr
  refine ⟨⟨?_, other⟩, .inr (stack_ne_nil_of_advance moves calls other)⟩
  intro call entered
  exact absurd entered (calls call)

theorem Scheduled.beginWalk (scheduled : server.Scheduled)
    (running : server.stopPhase = .running) :
    ({ server with stopPhase := .walking } : TcpServer).Scheduled where
  turn := scheduled.turn
  quiet := scheduled.quiet
  running _ := scheduled.running (by rw [running]; rfl)
  joined _ _ _ joined := by cases joined
  late walked := by cases walked
  alive := scheduled.alive

/-- Every step that meets the condition keeps the schedule. -/
theorem step_scheduled {label : ServerLabel} (accounted : server.Accounted)
    (scheduled : server.Scheduled) (finds : server.FindsEntries label)
    (taken : (serverMachine platform).Step server label next) : next.Scheduled := by
  cases step_moves taken with
  | act free other acts => exact scheduled.act accounted acts (idle_of_free free)
  | call free phase called => exact scheduled.call accounted free phase called finds
  | event here handling moved =>
      exact scheduled.stepConnection here moved (.inl (looping_of_isHandling handling))
  | use here public_call runs moved =>
      apply scheduled.stepConnection here moved
      rcases looping_of_runsCallbacks runs with looping | base
      · exact .inl looping
      · apply Or.inr
        refine ⟨⟨?_, by simp⟩, .inl base⟩
        intro other entered
        cases entered
        exact Call.isQuiet_of_isPublic public_call
  | dispatch here between moved =>
      exact scheduled.stepConnection here moved (.inl (looping_of_isBetween between))
  | close closing closed =>
      apply scheduled.close accounted closed closing
      intro connection here base
      apply finds.kept here
      simp only [removing, here, closing, base]
      rfl
  | advance closing moved => exact scheduled.goOn moved (by simp) (by simp)
  | leave moved => exact scheduled.goOn moved (by simp) (by simp)
  | newConnection free handling created => exact scheduled.newConnection free handling created
  | stop running => exact scheduled.beginWalk running
  | stopAgain => exact scheduled
  | destroy walking destroyed => exact scheduled.destroy accounted walking destroyed
  | endWalk reset => exact scheduled.endWalk accounted reset
  | quitLoop joining => exact scheduled.quitLoop joining
  | joinLoop joining returned => exact scheduled.joinLoop joining returned
  | quitBase => exact scheduled.setLoop_samePhase 0 rfl (.inr (.inl rfl))

end TcpServer

/-- A removal that finds its entry reset posts `connectDestroyed` for the second time. -/
theorem TcpServer.Accounted.postings_of_reset {server : TcpServer}
    (accounted : server.Accounted) {id : Nat} {connection : ServerConnection}
    (here : server.created id = some connection)
    (reset : server.connections connection.name = some none) :
    (server.removeConnectionInLoop id).postings id = 2 := by
  have once : server.postings id = 1 := by
    cases accounted.standing id connection here with
    | held mapped _ =>
        rw [reset] at mapped
        cases mapped
    | reset _ postings => exact postings
    | removed _ _ _ postings => exact postings
  simp only [removeConnectionInLoop, here, reset]
  rw [postDestroyed_eq, postings_settle, if_pos rfl, once]

open TcpServer in
/-- In every run in which each removal finds its entry not reset and each new connection
its name free, `connectDestroyed` is posted once at most for a connection, and to no loop
that has returned. -/
theorem connectDestroyed_posted_once {platform : Platform} {name hostport : String}
    {numThreads : Nat} {labels : List ServerLabel} {server : TcpServer}
    (transitions : ((serverMachine platform).restrict FindsEntries).Transitions
      (TcpServer.create name hostport numThreads) labels server) :
    (server.posted.map Posting.connection).Nodup ∧
      ∀ posting ∈ server.posted, posting.exited = false := by
  have both : server.Accounted ∧ server.Scheduled := by
    apply transitions.invariant
    · intro before label after known taken
      constructor
      · exact step_accounted known.1 taken.2 taken.1
      · exact step_scheduled known.1 known.2 taken.2 taken.1
    · exact ⟨create_accounted _ _ _, create_scheduled _ _ _⟩
  constructor
  · exact List.nodup_iff_count_le_one.mpr both.1.postings_le
  · exact both.2.alive

/-- A connection closes and is removed, another one is left for `stop`. -/
theorem connectDestroyed_posted_once_two : ∃ server : TcpServer,
    server.posted.map Posting.connection = [1, 2] ∧
      ((server.posted.map Posting.connection).Nodup ∧
        ∀ posting ∈ server.posted, posting.exited = false) := by
  have facts : (Machine.runPartial (fun server label =>
      if server.FindsEntries label then server.step .posix label else none)
      (TcpServer.create "S" "H" 1)
      [.act 0 .enter, .act 0 .test, .newConnection 1 5 .empty false false,
        .newConnection 2 6 .empty false false, .act 1 .enter, .act 1 .test, .act 1 .handle,
        .act 1 .swap, .call 1, .advance 1 true, .leave 1, .act 1 .back, .call 1,
        .advance 2 true, .leave 2, .act 1 .back, .act 1 .finish, .act 1 .frame, .act 1 .test,
        .event 1 XPOLLHUP (.received []) (.accepted 0), .advance 1 true, .advance 1 true,
        .leave 1, .advance 1 true, .act 0 .handle, .act 0 .swap, .call 0, .act 0 .back,
        .act 0 .finish, .stop, .destroy "S:H#2", .endWalk, .quitLoop]).map
        (fun server => server.posted.map Posting.connection) = some [1, 2] := by
    decide +kernel
  rcases Option.map_eq_some_iff.mp facts with ⟨server, ran, posted⟩
  apply Exists.intro server
  constructor
  · exact posted
  · exact connectDestroyed_posted_once (Machine.transitions_of_checked_run ran)

/-- A connection closes and its removal is still under way to the base loop when `stop`
runs there: the removal then finds the reset entry and posts to a loop that has returned. -/
theorem closed_before_stop_posted_twice :
    ¬ ∀ (platform : Platform) (name hostport : String) (numThreads : Nat)
      (labels : List ServerLabel) (server : TcpServer),
      (serverMachine platform).Transitions (TcpServer.create name hostport numThreads) labels
        server →
      (server.posted.map Posting.connection).Nodup ∧
        ∀ posting ∈ server.posted, posting.exited = false := by
  intro law
  have facts : (Machine.runPartial (fun server label => TcpServer.step server .posix label)
      (TcpServer.create "S" "H" 1)
      [.act 0 .enter, .act 0 .test, .newConnection 1 5 .empty false false, .act 1 .enter,
        .act 1 .test, .act 1 .handle, .act 1 .swap, .call 1, .advance 1 true, .leave 1,
        .act 1 .back, .act 1 .finish, .act 1 .frame, .act 1 .test,
        .event 1 XPOLLHUP (.received []) (.accepted 0), .advance 1 true, .advance 1 true,
        .leave 1, .advance 1 true, .stop, .destroy "S:H#1", .endWalk, .quitLoop,
        .act 1 .handle, .act 1 .swap, .call 1, .advance 1 true, .advance 1 true, .act 1 .back,
        .act 1 .finish, .act 1 .frame, .act 1 .test, .joinLoop, .act 0 .handle, .act 0 .swap,
        .call 0]).map (fun server => server.posted) = some [⟨1, false⟩, ⟨1, true⟩] := by
    decide +kernel
  rcases Option.map_eq_some_iff.mp facts with ⟨server, ran, posted⟩
  have once := (law .posix "S" "H" 1 _ server (Machine.transitions_of_runPartial ran)).1
  rw [posted] at once
  have different := (List.nodup_cons.mp once).1
  exact different List.mem_cons_self

end MyBookSources.Net
