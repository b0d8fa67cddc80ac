import PamDesktop.Foundations.Forest
import PamDesktop.Protocol.Bootstrap
import PamDesktop.Worker.Framing

/-!
# Command lanes and process isolation

How `execute_request` chooses the worker of a command: the primary worker, the keyed lane of the
pool or its round-robin lane. The two lanes of the pool share its workers.
`stateful_lane_isolated` says what keeps the stateful commands of different windows apart.
-/

namespace PamDesktop.Gateway

open Foundations Protocol Worker

/-- `GatewayState::command_execution`. -/
def commandExecution (bootstrap : Protocol.Bootstrap) (name : String) : CommandExecution :=
  ((bootstrap.commands.find? (·.name == name)).map (·.execution)).getD .stateful

/-- `GatewayState::isolation_key`. The walk up the declared parents ends after one step more than
there are windows. -/
def isolationKey (bootstrap : Protocol.Bootstrap) (windowId : String) : String :=
  if bootstrap.workstation.isolation = .perWorkspace then
    followParents bootstrap.workstation.parentOf (bootstrap.windows.length + 1) windowId
  else windowId

/-- `requested_parallel_count`. -/
def requestedParallelCount (bootstrap : Protocol.Bootstrap) : Nat :=
  if bootstrap.workstation.isolation ≠ .shared then
    max bootstrap.parallelWorkerCount bootstrap.windows.length
  else if bootstrap.commands.any (·.execution ≠ .stateful) then bootstrap.parallelWorkerCount
  else 0

/-- `WorkerPool`: how many workers it has, and what decides which of them is used. -/
structure WorkerPool where
  workers : Nat
  next : Nat
  affinities : List (String × Nat)
  nextAffinity : Nat

/-- The worker that a command is sent to, or the error it is answered with. -/
inductive Route where
  | primary
  | worker (index : Nat)
  | refused (error : WorkerRequestError)
deriving DecidableEq

namespace WorkerPool

/-- `WorkerPool::prepare`, once the workers have started. -/
def prepare (count : Nat) : WorkerPool where
  workers := count
  next := 0
  affinities := []
  nextAffinity := 0

/-- The choice of `WorkerPool::request`. The counter is a `usize`. -/
def request (pool : WorkerPool) : Route × WorkerPool :=
  if pool.workers = 0 then
    (.refused (.crashed "parallel worker pool is not configured"), pool)
  else (.worker (pool.next % pool.workers), { pool with next := (pool.next + 1) % 2 ^ 64 })

/-- The choice of `WorkerPool::request_keyed`. -/
def requestKeyed (pool : WorkerPool) (key : String) : Route × WorkerPool :=
  if pool.workers = 0 then
    (.refused (.crashed "isolated worker pool is not configured"), pool)
  else
    match pool.affinities.lookup key with
    | some index => (.worker index, pool)
    | none =>
        let index := pool.nextAffinity
        let pool := { pool with nextAffinity := index + 1 }
        if pool.workers ≤ index then
          (.refused (.crashed "isolated worker capacity is exhausted"), pool)
        else (.worker index, { pool with affinities := (key, index) :: pool.affinities })

end WorkerPool

/-- A command request, as far as it decides the lane. -/
structure CommandRequest where
  windowId : String
  command : String
deriving DecidableEq

/-- The part of `execute_request` that chooses the lane. -/
def routeCommand (bootstrap : Protocol.Bootstrap) (pool : WorkerPool) (request : CommandRequest) :
    Route × WorkerPool :=
  match commandExecution bootstrap request.command with
  | .stateful =>
      if bootstrap.workstation.isolation = .shared then (.primary, pool)
      else pool.requestKeyed (isolationKey bootstrap request.windowId)
  | .parallel | .background => pool.request

/-- Requests one after another, each with the route it takes. -/
def serve (bootstrap : Protocol.Bootstrap) :
    WorkerPool → List CommandRequest → List (CommandRequest × Route)
  | _, [] => []
  | pool, request :: rest =>
      (request, (routeCommand bootstrap pool request).1) ::
        serve bootstrap (routeCommand bootstrap pool request).2 rest

/-- The command runs on the stateful lane. -/
def CommandRequest.stateful (bootstrap : Protocol.Bootstrap) (request : CommandRequest) : Bool :=
  commandExecution bootstrap request.command == .stateful

/-- The key of the window that a request comes from. -/
def CommandRequest.key (bootstrap : Protocol.Bootstrap) (request : CommandRequest) : String :=
  isolationKey bootstrap request.windowId

/-- A worker that has served one key never serves another, on any lane. -/
def Isolated (bootstrap : Protocol.Bootstrap) (served : List (CommandRequest × Route)) : Prop :=
  ∀ first ∈ served, ∀ second ∈ served, ∀ index, first.2 = .worker index →
    second.2 = .worker index → first.1.key bootstrap = second.1.key bootstrap

/-- What holds on the stateful lane, and how the other lane uses the same workers. -/
structure LanesSeparate (bootstrap : Protocol.Bootstrap)
    (served : List (CommandRequest × Route)) : Prop where
  parent_key : bootstrap.workstation.isolation = .perWorkspace →
    ∀ id parent, bootstrap.workstation.parentOf id = some parent →
      (∃ n, climb bootstrap.workstation.parentOf n id = none) →
        isolationKey bootstrap id = isolationKey bootstrap parent
  admitted : ∀ entry ∈ served, ∃ index, entry.2 = .worker index ∧
    index < requestedParallelCount bootstrap
  same_worker : ∀ first ∈ served, ∀ second ∈ served,
    first.1.stateful bootstrap = true → second.1.stateful bootstrap = true →
      (first.2 = second.2 ↔ first.1.key bootstrap = second.1.key bootstrap)
  round_robin : ∀ before request route after, served = before ++ (request, route) :: after →
    request.stateful bootstrap = false →
      route = .worker ((before.countP fun entry => !entry.1.stateful bootstrap) % 2 ^ 64 %
        requestedParallelCount bootstrap)

/-! ## Keys -/

/-- The keys of registered windows are registered windows. -/
theorem isolation_key_registered {bootstrap : Protocol.Bootstrap} (hvalid : bootstrap.Valid)
    {windowId : String} (h : windowId ∈ bootstrap.windowIds) :
    isolationKey bootstrap windowId ∈ bootstrap.windowIds := by
  unfold isolationKey
  split
  · exact follow_parents_mem (fun _ _ _ hp => (hvalid.parent_registered hp).2) _ h
  · exact h

/-- A window whose chain of parents ends has the key of its parent. -/
theorem isolation_key_parent {bootstrap : Protocol.Bootstrap} (hvalid : bootstrap.Valid)
    (hisolation : bootstrap.workstation.isolation = .perWorkspace) {id parent : String}
    (hparent : bootstrap.workstation.parentOf id = some parent) {n : Nat}
    (hend : climb bootstrap.workstation.parentOf n id = none) :
    isolationKey bootstrap id = isolationKey bootstrap parent := by
  obtain ⟨hid, -⟩ := hvalid.parent_registered hparent
  have hlength : bootstrap.windowIds.length = bootstrap.windows.length := by
    simp [Protocol.Bootstrap.windowIds]
  have hwithin : climb bootstrap.workstation.parentOf bootstrap.windows.length id = none := by
    rw [← hlength]
    exact climb_ends_within (fun _ _ _ hp => (hvalid.parent_registered hp).2) hid hend
  have hshort : climb bootstrap.workstation.parentOf (bootstrap.windows.length + 1) parent =
      none := by
    have hlong := climb_none (n := bootstrap.windows.length + 2) hwithin (by omega)
    rw [climb, hparent] at hlong
    exact hlong
  unfold isolationKey
  rw [if_pos hisolation, if_pos hisolation, followParents, hparent]
  exact (follow_parents_stable hshort (by omega)).symm

/-! ## The keyed lane -/

/-- The workers given to keys so far: one each, in order. -/
structure Assigned (bootstrap : Protocol.Bootstrap) (pool : WorkerPool) : Prop where
  workers : pool.workers = requestedParallelCount bootstrap
  next : pool.nextAffinity = pool.affinities.length
  nodup : (pool.affinities.map Prod.fst).Nodup
  registered : ∀ key ∈ pool.affinities.map Prod.fst, key ∈ bootstrap.windowIds
  indices : ∀ entry ∈ pool.affinities, entry.2 < pool.affinities.length
  distinct : (pool.affinities.map Prod.snd).Nodup

/-- The pool that a bootstrap asks for is assigned to nobody. -/
theorem prepare_assigned (bootstrap : Protocol.Bootstrap) :
    Assigned bootstrap (WorkerPool.prepare (requestedParallelCount bootstrap)) := by
  constructor
  case workers => rfl
  case next => rfl
  case nodup => exact List.nodup_nil
  case registered =>
    intro key h
    cases h
  case indices =>
    intro entry h
    cases h
  case distinct => exact List.nodup_nil

variable {bootstrap : Protocol.Bootstrap} {pool : WorkerPool}

/-- Two keys with one worker are the same key. -/
theorem Assigned.key_unique (h : Assigned bootstrap pool) {first second : String} {index : Nat}
    (hfirst : pool.affinities.lookup first = some index)
    (hsecond : pool.affinities.lookup second = some index) : first = second := by
  have heq := List.inj_on_of_nodup_map h.distinct (mem_of_lookup hfirst) (mem_of_lookup hsecond) rfl
  exact congrArg Prod.fst heq

/-- There is a worker for each window. -/
theorem workers_enough (hisolation : bootstrap.workstation.isolation ≠ .shared) :
    bootstrap.windowIds.length ≤ requestedParallelCount bootstrap := by
  rw [requestedParallelCount, if_pos hisolation, Protocol.Bootstrap.windowIds, List.length_map]
  exact Nat.le_max_right _ _

/-- There is at least one worker. -/
theorem workers_positive (hvalid : bootstrap.Valid)
    (hisolation : bootstrap.workstation.isolation ≠ .shared) :
    0 < requestedParallelCount bootstrap := by
  rw [requestedParallelCount, if_pos hisolation]
  have := hvalid.workers.1
  omega

/-- A keyed request gets the worker of its key, and no other key loses its worker. -/
theorem request_keyed_assigned (hvalid : bootstrap.Valid)
    (hisolation : bootstrap.workstation.isolation ≠ .shared) (h : Assigned bootstrap pool)
    {key : String} (hkey : key ∈ bootstrap.windowIds) :
    ∃ index, (pool.requestKeyed key).1 = .worker index ∧
      index < requestedParallelCount bootstrap ∧
      (pool.requestKeyed key).2.affinities.lookup key = some index ∧
      (pool.requestKeyed key).2.next = pool.next ∧
      Assigned bootstrap (pool.requestKeyed key).2 ∧
      ∀ other i, pool.affinities.lookup other = some i →
        (pool.requestKeyed key).2.affinities.lookup other = some i := by
  have hpositive := workers_positive hvalid hisolation
  have henough := workers_enough hisolation
  have hlength : (pool.affinities.map Prod.fst).length ≤ bootstrap.windowIds.length :=
    (h.nodup.subperm fun key hmem => h.registered key hmem).length_le
  rw [List.length_map] at hlength
  cases hlookup : pool.affinities.lookup key with
  | some index =>
      have hresult : pool.requestKeyed key = (.worker index, pool) := by
        rw [WorkerPool.requestKeyed, if_neg (by rw [h.workers]; omega), hlookup]
      rw [hresult]
      have := h.indices _ (mem_of_lookup hlookup)
      exact ⟨index, rfl, by omega, hlookup, rfl, h, fun _ _ hother => hother⟩
  | none =>
      have hfresh : key ∉ pool.affinities.map Prod.fst := by
        intro hmem
        obtain ⟨⟨key', index⟩, hentry, rfl⟩ := List.mem_map.mp hmem
        have := List.lookup_eq_none_iff.mp hlookup _ hentry
        simp at this
      have hroom : pool.affinities.length + 1 ≤ bootstrap.windowIds.length := by
        have hsub : (key :: pool.affinities.map Prod.fst) ⊆ bootstrap.windowIds := by
          intro other hother
          rcases List.mem_cons.mp hother with rfl | hother
          · exact hkey
          · exact h.registered other hother
        have := ((List.nodup_cons.mpr ⟨hfresh, h.nodup⟩).subperm hsub).length_le
        simpa using this
      have hresult : pool.requestKeyed key = (.worker pool.affinities.length,
          { pool with
            nextAffinity := pool.nextAffinity + 1
            affinities := (key, pool.affinities.length) :: pool.affinities }) := by
        rw [WorkerPool.requestKeyed, if_neg (by rw [h.workers]; omega), hlookup]
        simp only [h.next]
        rw [if_neg (by rw [h.workers]; omega)]
      rw [hresult]
      refine ⟨pool.affinities.length, rfl, by omega, by simp, rfl, ?_, ?_⟩
      · constructor
        case workers => exact h.workers
        case next => simp [h.next]
        case nodup => exact List.nodup_cons.mpr ⟨hfresh, h.nodup⟩
        case registered =>
          intro other hother
          rcases List.mem_cons.mp hother with rfl | hother
          · exact hkey
          · exact h.registered other hother
        case indices =>
          intro entry hentry
          rcases List.mem_cons.mp hentry with rfl | hentry
          · simp
          · have := h.indices entry hentry
            simp only [List.length_cons]
            omega
        case distinct =>
          refine List.nodup_cons.mpr ⟨?_, h.distinct⟩
          intro hmem
          obtain ⟨entry, hentry, hindex⟩ := List.mem_map.mp hmem
          have := h.indices entry hentry
          omega
      · intro other i hother
        have hne : other ≠ key := by
          rintro rfl
          rw [hlookup] at hother
          cases hother
        rw [List.lookup_cons, show (other == key) = false by simpa using hne]
        exact hother

/-! ## Both lanes -/

/-- What the choice of a lane comes to in an isolated application. -/
structure Routed (bootstrap : Protocol.Bootstrap) (pool : WorkerPool) (request : CommandRequest)
    (result : Route × WorkerPool) (index : Nat) : Prop where
  route : result.1 = .worker index
  bound : index < requestedParallelCount bootstrap
  assigned : Assigned bootstrap result.2
  kept : ∀ key i, pool.affinities.lookup key = some i → result.2.affinities.lookup key = some i
  keyed : request.stateful bootstrap = true →
    result.2.affinities.lookup (request.key bootstrap) = some index ∧ result.2.next = pool.next
  shared : request.stateful bootstrap = false →
    index = pool.next % requestedParallelCount bootstrap ∧
      result.2.next = (pool.next + 1) % 2 ^ 64

/-- A command that is not stateful takes the worker whose turn it is. -/
theorem request_routed (hvalid : bootstrap.Valid)
    (hisolation : bootstrap.workstation.isolation ≠ .shared) (h : Assigned bootstrap pool)
    {request : CommandRequest} (hstateful : request.stateful bootstrap = false) :
    Routed bootstrap pool request pool.request
      (pool.next % requestedParallelCount bootstrap) := by
  have hpositive := workers_positive hvalid hisolation
  have hresult : pool.request = (.worker (pool.next % pool.workers),
      { pool with next := (pool.next + 1) % 2 ^ 64 }) := by
    rw [WorkerPool.request, if_neg (by rw [h.workers]; omega)]
  rw [hresult]
  constructor
  case route => rw [h.workers]
  case bound => exact Nat.mod_lt _ hpositive
  case assigned => exact ⟨h.workers, h.next, h.nodup, h.registered, h.indices, h.distinct⟩
  case kept => exact fun _ _ hlookup => hlookup
  case keyed =>
    intro htrue
    rw [hstateful] at htrue
    cases htrue
  case shared => exact fun _ => ⟨rfl, rfl⟩

/-- Every request of a registered window is routed to a worker. -/
theorem route_command_routed (hvalid : bootstrap.Valid)
    (hisolation : bootstrap.workstation.isolation ≠ .shared) (h : Assigned bootstrap pool)
    {request : CommandRequest} (hwindow : request.windowId ∈ bootstrap.windowIds) :
    ∃ index, Routed bootstrap pool request (routeCommand bootstrap pool request) index := by
  unfold routeCommand
  cases hexecution : commandExecution bootstrap request.command with
  | stateful =>
      obtain ⟨index, hroute, hbound, hlookup, hnext, hassigned, hkept⟩ :=
        request_keyed_assigned hvalid hisolation h (isolation_key_registered hvalid hwindow)
      simp only [if_neg hisolation]
      refine ⟨index, hroute, hbound, hassigned, hkept, fun _ => ⟨hlookup, hnext⟩, ?_⟩
      intro hstateful
      rw [CommandRequest.stateful, hexecution] at hstateful
      cases hstateful
  | parallel | background =>
      have hstateful : request.stateful bootstrap = false := by
        rw [CommandRequest.stateful, hexecution]
        rfl
      exact ⟨_, request_routed hvalid hisolation h hstateful⟩

/-- After any requests each stateful one still has the worker of its key. -/
theorem serve_routed (hvalid : bootstrap.Valid)
    (hisolation : bootstrap.workstation.isolation ≠ .shared) (h : Assigned bootstrap pool)
    {requests : List CommandRequest}
    (hwindows : ∀ request ∈ requests, request.windowId ∈ bootstrap.windowIds) :
    ∃ final, Assigned bootstrap final ∧
      (∀ key i, pool.affinities.lookup key = some i → final.affinities.lookup key = some i) ∧
      ∀ entry ∈ serve bootstrap pool requests, ∃ index, entry.2 = .worker index ∧
        index < requestedParallelCount bootstrap ∧
        (entry.1.stateful bootstrap = true →
          final.affinities.lookup (entry.1.key bootstrap) = some index) := by
  induction requests generalizing pool with
  | nil =>
      refine ⟨pool, h, fun _ _ hlookup => hlookup, ?_⟩
      intro entry hentry
      cases hentry
  | cons request rest ih =>
      obtain ⟨index, hrouted⟩ :=
        route_command_routed hvalid hisolation h (hwindows request List.mem_cons_self)
      obtain ⟨final, hfinal, hkept, hserved⟩ :=
        ih hrouted.assigned fun other hother => hwindows other (List.mem_cons_of_mem _ hother)
      refine ⟨final, hfinal, fun key i hlookup => hkept key i (hrouted.kept key i hlookup), ?_⟩
      intro entry hentry
      rcases List.mem_cons.mp hentry with rfl | hentry
      · exact ⟨index, hrouted.route, hrouted.bound,
          fun hstateful => hkept _ _ (hrouted.keyed hstateful).1⟩
      · exact hserved entry hentry

/-- The turns of the round-robin lane. -/
theorem serve_round_robin (hvalid : bootstrap.Valid)
    (hisolation : bootstrap.workstation.isolation ≠ .shared) (h : Assigned bootstrap pool)
    (hnext : pool.next < 2 ^ 64) {requests : List CommandRequest}
    (hwindows : ∀ request ∈ requests, request.windowId ∈ bootstrap.windowIds)
    {before after : List (CommandRequest × Route)} {request : CommandRequest} {route : Route}
    (hserved : serve bootstrap pool requests = before ++ (request, route) :: after)
    (hstateful : request.stateful bootstrap = false) :
    route = .worker
      ((pool.next + before.countP fun entry => !entry.1.stateful bootstrap) % 2 ^ 64 %
        requestedParallelCount bootstrap) := by
  induction before generalizing pool requests with
  | nil =>
      cases requests with
      | nil => cases hserved
      | cons first rest =>
          obtain ⟨index, hrouted⟩ :=
            route_command_routed hvalid hisolation h (hwindows first List.mem_cons_self)
          rw [serve, List.nil_append, List.cons.injEq, Prod.mk.injEq] at hserved
          obtain ⟨⟨rfl, rfl⟩, -⟩ := hserved
          rw [hrouted.route, (hrouted.shared hstateful).1, List.countP_nil, Nat.add_zero,
            Nat.mod_eq_of_lt hnext]
  | cons entry before ih =>
      cases requests with
      | nil => cases hserved
      | cons first rest =>
          obtain ⟨index, hrouted⟩ :=
            route_command_routed hvalid hisolation h (hwindows first List.mem_cons_self)
          rw [serve, List.cons_append, List.cons.injEq] at hserved
          obtain ⟨rfl, hserved⟩ := hserved
          have hrest := fun other hother => hwindows other (List.mem_cons_of_mem _ hother)
          cases hfirst : first.stateful bootstrap with
          | true =>
              have hsame := (hrouted.keyed hfirst).2
              rw [ih hrouted.assigned (by rw [hsame]; exact hnext) hrest hserved, hsame,
                List.countP_cons_of_neg (by simp [hfirst])]
          | false =>
              have hturn := (hrouted.shared hfirst).2
              rw [ih hrouted.assigned (by rw [hturn]; exact Nat.mod_lt _ (by decide)) hrest hserved,
                hturn, List.countP_cons_of_pos (by simp [hfirst]), Nat.mod_add_mod]
              congr 3
              omega

/-- In an accepted application with isolation, every request of a registered window reaches a
worker; stateful commands share a worker exactly when their windows share a key, and a window
shares the key of its parent. Other commands take the workers in turn. -/
theorem stateful_lane_isolated (platform : Platform) (bootstrap : Protocol.Bootstrap)
    (hvalid : bootstrap.validate platform = .ok ())
    (hisolation : bootstrap.workstation.isolation ≠ .shared) (requests : List CommandRequest)
    (hwindows : ∀ request ∈ requests, request.windowId ∈ bootstrap.windowIds) :
    LanesSeparate bootstrap
      (serve bootstrap (.prepare (requestedParallelCount bootstrap)) requests) := by
  have hvalid := Protocol.Bootstrap.validate_ok hvalid
  have hprepared := prepare_assigned bootstrap
  obtain ⟨final, hfinal, -, hserved⟩ := serve_routed hvalid hisolation hprepared hwindows
  constructor
  case parent_key =>
    intro hworkspace id parent hparent hends
    obtain ⟨n, hend⟩ := hends
    exact isolation_key_parent hvalid hworkspace hparent hend
  case admitted =>
    intro entry hentry
    obtain ⟨index, hroute, hbound, -⟩ := hserved entry hentry
    exact ⟨index, hroute, hbound⟩
  case same_worker =>
    intro first hfirst second hsecond hstateful hstateful'
    obtain ⟨index, hroute, -, hkeyed⟩ := hserved first hfirst
    obtain ⟨index', hroute', -, hkeyed'⟩ := hserved second hsecond
    constructor
    · intro hsame
      rw [hroute, hroute'] at hsame
      cases hsame
      exact hfinal.key_unique (hkeyed hstateful) (hkeyed' hstateful')
    · intro hsame
      have hlookup := hkeyed hstateful
      rw [hsame, hkeyed' hstateful'] at hlookup
      cases hlookup
      rw [hroute, hroute']
  case round_robin =>
    intro before request route after hsplit hstateful
    have hstart : (WorkerPool.prepare (requestedParallelCount bootstrap)).next = 0 := rfl
    have hturn := serve_round_robin hvalid hisolation hprepared (by rw [hstart]; decide) hwindows
      hsplit hstateful
    rwa [hstart, Nat.zero_add] at hturn

/-! ## Commands of the notes application -/

/-- Two windows with a worker each, and a command that runs in parallel. -/
def notesIsolated : Protocol.Bootstrap :=
  { notesBootstrap ["main", "settings"] { notesWorkstation with isolation := .perWindow } with
    commands := [⟨"notes.save", .stateful⟩, ⟨"notes.export", .parallel⟩] }

/-- Notes are saved from both windows. -/
def notesSaves : List CommandRequest := [⟨"main", "notes.save"⟩, ⟨"settings", "notes.save"⟩]

theorem notes_isolated_valid : notesIsolated.validate notesPlatform = .ok () := by decide

theorem notes_saves_isolated :
    LanesSeparate notesIsolated
      (serve notesIsolated (.prepare (requestedParallelCount notesIsolated)) notesSaves) :=
  stateful_lane_isolated notesPlatform notesIsolated notes_isolated_valid (by decide) notesSaves
    (by decide)

/-- A worker that has saved a note for one window exports notes for the other. -/
theorem parallel_command_shares_worker :
    notesIsolated.validate notesPlatform = .ok () ∧
      ¬ Isolated notesIsolated
        (serve notesIsolated (.prepare (requestedParallelCount notesIsolated))
          [⟨"main", "notes.save"⟩, ⟨"settings", "notes.export"⟩]) := by
  refine ⟨notes_isolated_valid, ?_⟩
  intro hisolated
  have hsame := hisolated (⟨"main", "notes.save"⟩, .worker 0) (by decide)
    (⟨"settings", "notes.export"⟩, .worker 0) (by decide) 0 rfl rfl
  exact absurd hsame (by decide)

end PamDesktop.Gateway
