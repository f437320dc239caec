/-
Several services on one host, and which of them a command line program reaches.

All services use one path.  `serverFactory` unlinks it before it binds it, so that, where
`unlink` succeeds, a path left behind by a service that has ended is no hindrance, and neither
is that of a service that runs.  Whether it does is not looked at: in a sticky directory the
path of another user stays.  The calls of the factories, the ends of services and the requests
come in any order.  A service ends by a signal or by an exception that nothing catches: no
destructor runs, and its path stays.
-/
import NeighborDiscovery.Library.NameRegistry
import NeighborDiscovery.Network.DescriptorUse
import NeighborDiscovery.Processes.CppNeighborDiscovery

namespace NeighborDiscovery.Processes

open NameRegistry

/-! ## The factory, call by call -/

/-- A system call of `serverFactory`, with what it comes to.  `unlink` also fails where there is
nothing at the path. -/
inductive ServerCall where
  | unlink (done : Bool)
  | socket (fd : Option Nat)
  | bind (done : Bool)
  | listen (done : Bool)
deriving DecidableEq

/-- How far `serverFactory` has come. -/
inductive Progress where
  | entered
  | unlinked
  | opened (fd : Nat)
  | bound (fd : Nat)
  | returned (r : FunctionReturn UnixSocket)

/-- What follows a call.  The descriptor is closed where `bind` or `listen` fails. -/
def Progress.next (path : Bytes) : Progress → ServerCall → Option Progress
  | .entered, .unlink _ => some .unlinked
  | .unlinked, .socket none =>
    some (.returned (.ofMsg .Error (text "socket(AF_UNIX, SOCK_STREAM) failed")))
  | .unlinked, .socket (some fd) => some (.opened fd)
  | .opened _, .bind false => some (.returned (.ofMsg .Error (text "bind() failed")))
  | .opened fd, .bind true => some (.bound fd)
  | .bound _, .listen false => some (.returned (.ofMsg .Error (text "listen() failed")))
  | .bound fd, .listen true => some (.returned (.ofData ⟨fd, path, true⟩))
  | _, _ => none

/-- The calls of the factory where they come to `done` and `calls`. -/
def serverTrace (done : Bool) (calls : ServerCalls) : List ServerCall :=
  .unlink done :: .socket calls.socket ::
    match calls.socket with
    | none => []
    | some _ => .bind calls.bind :: if calls.bind then [.listen calls.listen] else []

variable {path : Bytes}

theorem foldlM_returned {cs : List ServerCall} {r : FunctionReturn UnixSocket} {p : Progress}
    (h : cs.foldlM (Progress.next path) (.returned r) = some p) : cs = [] ∧ p = .returned r := by
  cases cs with
  | nil => exact ⟨rfl, (Option.some.inj h).symm⟩
  | cons c cs => cases h

/-- The calls that end the factory, and what it returns after them. -/
theorem returned_iff {cs : List ServerCall} {r : FunctionReturn UnixSocket} :
    cs.foldlM (Progress.next path) .entered = some (.returned r) ↔
      ∃ done calls, cs = serverTrace done calls ∧ r = UnixSocket.serverFactory path calls := by
  constructor
  · intro h
    obtain _ | ⟨done | _ | _ | _, cs⟩ := cs
    all_goals try cases h
    obtain _ | ⟨_ | (_ | fd) | _ | _, cs⟩ := cs
    all_goals try cases h
    · obtain ⟨rfl, hr⟩ := foldlM_returned h
      cases hr
      exact ⟨done, ⟨none, false, false⟩, rfl, rfl⟩
    obtain _ | ⟨_ | _ | (_ | _) | _, cs⟩ := cs
    all_goals try cases h
    · obtain ⟨rfl, hr⟩ := foldlM_returned h
      cases hr
      exact ⟨done, ⟨some fd, false, false⟩, rfl, rfl⟩
    obtain _ | ⟨_ | _ | _ | (_ | _), cs⟩ := cs
    all_goals try cases h
    · obtain ⟨rfl, hr⟩ := foldlM_returned h
      cases hr
      exact ⟨done, ⟨some fd, true, false⟩, rfl, rfl⟩
    · obtain ⟨rfl, hr⟩ := foldlM_returned h
      cases hr
      exact ⟨done, ⟨some fd, true, true⟩, rfl, rfl⟩
  · rintro ⟨done, ⟨_ | fd, _ | _, _ | _⟩, rfl, rfl⟩ <;> rfl

/-! ## What a service does to its path later -/

def unlinkedPath : FdCall → Option Bytes
  | .sys (.unlink path) => some path
  | _ => none

/-- The paths that are unlinked. -/
def unlinked (calls : List FdCall) : List Bytes := calls.filterMap unlinkedPath

section Unlinked

variable (leftover : Bytes → Bytes)

theorem unlinked_append (calls₁ calls₂ : List FdCall) :
    unlinked (calls₁ ++ calls₂) = unlinked calls₁ ++ unlinked calls₂ := List.filterMap_append ..

theorem unlinked_usesOnly {s : UnixSocket} {calls : List FdCall} (h : UsesOnly s calls) :
    unlinked calls = [] := by
  refine List.filterMap_eq_nil_iff.mpr fun call hcall => ?_
  obtain ⟨fd, -, rfl⟩ := h call hcall
  rfl

/-- A client owns no path. -/
theorem unlinked_reset {clientSocket : Option UnixSocket}
    (h : ∀ c ∈ clientSocket, c.isServer = false) : unlinked (resetClient clientSocket) = [] := by
  cases clientSocket with
  | none => rfl
  | some c =>
    unfold resetClient UnixSocket.release
    rw [Option.elim_some, h c rfl]
    by_cases hfd : c.sockFd ≥ 0 <;> simp [hfd, unlinked, unlinkedPath]

theorem unlinked_takeClient (server : Option UnixSocket) (pass : Pass)
    (clientSocket : Option UnixSocket) (h : ∀ c ∈ clientSocket, c.isServer = false) :
    unlinked (takeClient leftover server pass clientSocket).1 = [] ∧
      ∀ c ∈ (takeClient leftover server pass clientSocket).2, c.isServer = false := by
  cases server with
  | none => exact ⟨rfl, h⟩
  | some s =>
    rw [takeClient_eq]
    cases hdata : (s.acceptClient (pass.client.map (·.fd))).data with
    | none => exact ⟨unlinked_usesOnly (usesOnly_accept s), h⟩
    | some c =>
      obtain ⟨cfd, -, rfl⟩ := UnixSocket.acceptClient_data hdata
      refine ⟨?_, fun c hc => by cases hc; rfl⟩
      dsimp only
      rw [unlinked_append, unlinked_append, unlinked_append, unlinked_reset h,
        unlinked_usesOnly (usesOnly_accept s), unlinked_usesOnly (usesOnly_receiveString _ _)]
      rfl

theorem unlinked_loop (server : Option UnixSocket) (passes : List Pass)
    (clientSocket : Option UnixSocket) (h : ∀ c ∈ clientSocket, c.isServer = false) :
    unlinked (loopCalls leftover server passes clientSocket).1 = [] ∧
      ∀ c ∈ (loopCalls leftover server passes clientSocket).2, c.isServer = false := by
  induction passes generalizing clientSocket with
  | nil => exact ⟨rfl, h⟩
  | cons pass passes ih =>
    obtain ⟨hpass, hclient⟩ := unlinked_takeClient leftover server pass clientSocket h
    obtain ⟨hrest, hlast⟩ := ih _ hclient
    refine ⟨?_, hlast⟩
    show unlinked ((takeClient leftover server pass clientSocket).1 ++
      (loopCalls leftover server passes (takeClient leftover server pass clientSocket).2).1) = []
    rw [unlinked_append, hpass, hrest, List.append_nil]

theorem unlinked_iteration (e : Iteration) : unlinked (iterationCalls leftover e) = [] := by
  obtain ⟨hloop, hclient⟩ := unlinked_loop leftover e.before.unixDomainServer
    (passesMade e) none fun c hc => by cases hc
  unfold iterationCalls
  dsimp only
  rw [unlinked_append, unlinked_append, hloop, unlinked_reset hclient]
  cases e.output.reply with
  | none => rfl
  | some answer =>
    rw [unlinked_usesOnly (usesOnly_send _ _ _)]
    rfl

/-- A service unlinks its path once, in its factory, and does nothing to it afterwards. -/
theorem service_unlinks (settings : DiscoverySettings) (localSettings : UnixDomainSettings)
    (calls : SetupCalls) (h : List Iteration) :
    unlinked ((constructCalls leftover settings localSettings calls).map .sys ++
      h.flatMap (iterationCalls leftover)) = [cStr localSettings.socketPath] := by
  have hpair : ∀ T, unlinked ((socketPairCalls T settings calls).map .sys) = [] := by
    intro T
    unfold socketPairCalls senderCalls
    rw [List.map_append, unlinked_append]
    obtain ⟨_ | fd, _ | _, _ | _⟩ := calls.receiver T <;> cases calls.senderSocket T <;> rfl
  have hserver : unlinked ((UnixSocket.serverCalls localSettings.socketPath calls.unixDomain ++
      (Process.returnedData (UnixSocket.members leftover)
        (UnixSocket.serverFactory localSettings.socketPath calls.unixDomain)).2).map .sys) =
      [cStr localSettings.socketPath] := by
    obtain ⟨_ | fd, _ | _, _ | _⟩ := calls.unixDomain <;> rfl
  have hiterations : unlinked (h.flatMap (iterationCalls leftover)) = [] := by
    refine List.filterMap_eq_nil_iff.mpr fun call hcall => ?_
    obtain ⟨e, -, hmem⟩ := List.mem_flatMap.mp hcall
    exact List.filterMap_eq_nil_iff.mp (unlinked_iteration leftover e) call hmem
  unfold constructCalls
  rw [List.map_append, List.map_append, unlinked_append, unlinked_append, unlinked_append, hpair,
    hpair, hserver, hiterations]
  rfl

end Unlinked

/-! ## The host -/

/-- What `bind` and `connect` use of a path: `sun_path` has 108 bytes, and the last of them
stays zero. -/
def sunPath (path : Bytes) : Bytes := (cStr path).take 107

/-- The services by number, one that is not started being at the entry of its factory,
and the service whose socket is bound to a path. -/
structure Services where
  progress : Nat → Progress
  ended : Nat → Bool
  bound : Bytes → Option Nat

def Services.start : Services := ⟨fun _ => .entered, fun _ => false, fun _ => none⟩

/-- The service that `connect` reaches: the socket bound to the path has to listen. -/
def Services.reached (path : Bytes) (s : Services) : Option Nat :=
  (s.bound (sunPath path)).filter fun k =>
    !s.ended k &&
      match s.progress k with
      | .returned r => r.isOk
      | _ => false

inductive HostAct where
  | call (k : Nat) (c : ServerCall)
  | ends (k : Nat)
  | request (calls : CliCalls)

/-- What a step does to the paths. -/
def HostAct.change (path : Bytes) : HostAct → Option (Change Bytes Nat)
  | .call _ (.unlink true) => some (.removed (cStr path))
  | .call k (.bind true) => some (.taken (sunPath path) k)
  | _ => none

def connected (calls : CliCalls) : Bool := (UnixSocket.clientFactory calls.client).isOk

/-- A step, with the service a request reaches.  `bind` is refused where the path exists,
and `connect` where nothing listens; both may be refused for other reasons. -/
def act (path : Bytes) (s : Services) (a : HostAct) : Option (Services × Option Nat) :=
  let bound := (a.change path).elim s.bound (Change.apply s.bound)
  match a with
  | .call k c =>
    if s.ended k ∨ (c = .bind true ∧ s.bound (sunPath path) ≠ none) then none
    else (Progress.next path (s.progress k) c).map fun p =>
      (⟨Function.update s.progress k p, s.ended, bound⟩, none)
  | .ends k => some ({ s with ended := Function.update s.ended k true }, none)
  | .request calls =>
    if connected calls then (s.reached path).map fun k => (s, some k) else some (s, none)

def HostActs (path : Bytes) (s : Services) (a : HostAct) (o : Option Nat) (s' : Services) : Prop :=
  act path s a = some (s', o)

abbrev HostRun (path : Bytes) (h : List (Runs.Event Services HostAct (Option Nat)))
    (s : Services) : Prop := Runs.Run (HostActs path) .start h s

/-! ## What the steps so far tell -/

def HostAct.callBy (k : Nat) : HostAct → Option ServerCall
  | .call k' c => if k' = k then some c else none
  | _ => none

/-- The calls of one service. -/
def callsBy (k : Nat) (acts : List HostAct) : List ServerCall := acts.filterMap (HostAct.callBy k)

/-- What the steps do to the paths. -/
def changes (path : Bytes) (acts : List HostAct) : List (Change Bytes Nat) :=
  acts.filterMap (HostAct.change path)

/-- A state shows the steps it comes from. -/
structure Follows (path : Bytes) (acts : List HostAct) (s : Services) : Prop where
  progress : ∀ k, (callsBy k acts).foldlM (Progress.next path) .entered = some (s.progress k)
  ended : ∀ k, s.ended k = true ↔ .ends k ∈ acts
  bound : s.bound = holder (changes path acts)
  guarded : Guarded (changes path acts)

theorem callsBy_append (k : Nat) (before after : List HostAct) :
    callsBy k (before ++ after) = callsBy k before ++ callsBy k after := List.filterMap_append ..

theorem changes_append (before after : List HostAct) :
    changes path (before ++ after) = changes path before ++ changes path after :=
  List.filterMap_append ..

theorem changes_at {a : HostAct} {c : Change Bytes Nat} (h : a.change path = some c)
    (before after : List HostAct) :
    changes path (before ++ a :: after) = changes path before ++ c :: changes path after := by
  rw [changes_append]
  exact congrArg (changes path before ++ ·) (List.filterMap_cons_some h)

theorem callsBy_snoc (k : Nat) (acts : List HostAct) (a : HostAct) :
    callsBy k (acts ++ [a]) = callsBy k acts ++ (a.callBy k).toList := by
  rw [callsBy_append]
  cases h : a.callBy k <;> simp [callsBy, h]

theorem changes_snoc (acts : List HostAct) (a : HostAct) :
    changes path (acts ++ [a]) = changes path acts ++ (a.change path).toList := by
  rw [changes_append]
  cases h : a.change path <;> simp [changes, h]

theorem holder_changes_snoc (acts : List HostAct) (a : HostAct) :
    holder (changes path (acts ++ [a])) = (a.change path).elim (holder (changes path acts))
      (Change.apply (holder (changes path acts))) := by
  rw [changes_snoc]
  cases a.change path with
  | none => rw [Option.toList_none, List.append_nil]; rfl
  | some c => exact holder_snoc _ c

/-- What a step is. -/
theorem act_cases {s s' : Services} {a : HostAct} {o : Option Nat}
    (h : act path s a = some (s', o)) :
    (∃ k c p, a = .call k c ∧ (c = .bind true → s.bound (sunPath path) = none) ∧
      Progress.next path (s.progress k) c = some p ∧ o = none ∧
      s' = ⟨Function.update s.progress k p, s.ended,
        (a.change path).elim s.bound (Change.apply s.bound)⟩) ∨
    (∃ k, a = .ends k ∧ o = none ∧ s' = { s with ended := Function.update s.ended k true }) ∨
    ∃ calls, a = .request calls ∧ s' = s ∧ o.isSome = connected calls ∧
      ∀ k, o = some k → s.reached path = some k := by
  cases a with
  | call k c =>
    simp only [act] at h
    split at h
    · cases h
    · rename_i hguard
      rw [not_or, not_and_not_right] at hguard
      obtain ⟨p, hp, hs⟩ := Option.map_eq_some_iff.mp h
      cases hs
      exact .inl ⟨k, c, p, rfl, hguard.2, hp, rfl, rfl⟩
  | ends k =>
    cases h
    exact .inr (.inl ⟨k, rfl, rfl, rfl⟩)
  | request calls =>
    simp only [act] at h
    split at h
    · rename_i hconnected
      obtain ⟨k, hk, hs⟩ := Option.map_eq_some_iff.mp h
      cases hs
      exact .inr (.inr ⟨calls, rfl, rfl, hconnected.symm, fun k' hk' => by rw [hk, hk']⟩)
    · rename_i hconnected
      cases h
      exact .inr (.inr ⟨calls, rfl, rfl, (Bool.not_eq_true _ ▸ hconnected).symm,
        fun k' hk' => by cases hk'⟩)

theorem callsBy_call {k k' : Nat} {c : ServerCall} {acts : List HostAct} :
    callsBy k (acts ++ [.call k' c]) = callsBy k acts ++ if k' = k then [c] else [] := by
  rw [callsBy_snoc, HostAct.callBy]
  split <;> rfl

/-- A step that is no call leaves the factories and the paths as they are. -/
theorem Follows.quiet {acts : List HostAct} {s : Services} (hs : Follows path acts s) {a : HostAct}
    (hcall : ∀ k, a.callBy k = none) (hchange : a.change path = none) {ended : Nat → Bool}
    (hended : ∀ k, ended k = true ↔ .ends k ∈ acts ++ [a]) :
    Follows path (acts ++ [a]) { s with ended := ended } := by
  refine ⟨fun k => ?_, hended, ?_, ?_⟩
  · rw [callsBy_snoc, hcall, Option.toList_none, List.append_nil]
    exact hs.progress k
  · rw [holder_changes_snoc, hchange]
    exact hs.bound
  · rw [changes_snoc, hchange, Option.toList_none, List.append_nil]
    exact hs.guarded

/-- A call moves the factory of its service on. -/
theorem Follows.call {acts : List HostAct} {s : Services} (hs : Follows path acts s) {k : Nat}
    {c : ServerCall} {p : Progress} (hnext : Progress.next path (s.progress k) c = some p)
    (hfree : c = .bind true → s.bound (sunPath path) = none) :
    Follows path (acts ++ [.call k c]) ⟨Function.update s.progress k p, s.ended,
      ((HostAct.call k c).change path).elim s.bound (Change.apply s.bound)⟩ := by
  refine ⟨fun k' => ?_, fun k' => ?_, ?_, ?_⟩
  · show _ = some (Function.update s.progress k p k')
    rw [callsBy_call]
    by_cases hk : k = k'
    · subst hk
      rw [if_pos rfl, List.foldlM_append, hs.progress, Function.update_self]
      show (Progress.next path (s.progress k) c >>= fun p => some p) = some p
      rw [hnext]
      rfl
    · rw [if_neg hk, List.append_nil, hs.progress, Function.update_of_ne (Ne.symm hk)]
  · rw [hs.ended, List.mem_append, List.mem_singleton]
    exact (or_iff_left (by simp)).symm
  · rw [holder_changes_snoc, ← hs.bound]
  · rw [changes_snoc]
    cases hchange : HostAct.change path (.call k c) with
    | none =>
      rw [Option.toList_none, List.append_nil]
      exact hs.guarded
    | some change =>
      refine hs.guarded.snoc fun n q htaken => ?_
      subst htaken
      rw [← hs.bound]
      obtain (_ | _) | _ | (_ | _) | _ := c <;> cases hchange
      exact hfree rfl

theorem Follows.step {acts : List HostAct} {s s' : Services} (hs : Follows path acts s)
    {a : HostAct} {o : Option Nat} (h : act path s a = some (s', o)) :
    Follows path (acts ++ [a]) s' := by
  rcases act_cases h with ⟨k, c, p, rfl, hfree, hnext, -, rfl⟩ | ⟨k, rfl, -, rfl⟩ |
    ⟨calls, rfl, rfl, -, -⟩
  · exact hs.call hnext hfree
  · refine hs.quiet (fun _ => rfl) rfl fun k' => ?_
    rw [List.mem_append, List.mem_singleton, ← hs.ended]
    by_cases hk : k' = k
    · simp [hk]
    · simp [hk]
  · refine hs.quiet (fun _ => rfl) rfl fun k' => ?_
    rw [hs.ended, List.mem_append, List.mem_singleton]
    exact (or_iff_left (by simp)).symm

theorem follows_start : Follows path [] .start :=
  ⟨fun _ => rfl, fun _ => by simp [Services.start], rfl, .nil⟩

theorem HostRun.follows {h : List (Runs.Event Services HostAct (Option Nat))} {s : Services}
    (hrun : HostRun path h s) : Follows path (h.map Runs.Event.input) s :=
  hrun.invariant (fun h s => Follows path (h.map Runs.Event.input) s) follows_start
    fun _ _ _ _ _ _ hstep hs => by
      rw [List.map_append]
      exact hs.step hstep

/-! ## Who is reached -/

/-- A service bound the path, and since then no start has unlinked it. -/
def Bound (acts : List HostAct) (k : Nat) : Prop :=
  Runs.Since (· = .call k (.bind true)) (fun a => ∃ k', a = .call k' (.unlink true)) acts

/-- A service that is set up and runs, and whose path nobody has unlinked since. -/
structure Serves (path : Bytes) (acts : List HostAct) (k : Nat) : Prop where
  set_up : ∃ done calls fd, callsBy k acts = serverTrace done calls ∧
    UnixSocket.serverFactory path calls = .ofData ⟨fd, path, true⟩
  bound : Bound acts k
  running : .ends k ∉ acts

theorem change_removed {a : HostAct} {n : Bytes} :
    a.change path = some (.removed n) ↔ (∃ k, a = .call k (.unlink true)) ∧ cStr path = n := by
  obtain ⟨k, (_ | _) | _ | (_ | _) | _⟩ | k | calls := a <;> simp [HostAct.change]

theorem change_taken {a : HostAct} {n : Bytes} {k : Nat} :
    a.change path = some (.taken n k) ↔ a = .call k (.bind true) ∧ sunPath path = n := by
  obtain ⟨k', (_ | _) | _ | (_ | _) | _⟩ | k' | calls := a <;> simp [HostAct.change, and_comm]

/-- Where the path fits, it is held by the service that bound it last, unless a start has
unlinked it since. -/
theorem holder_changes (hpath : cStr path = sunPath path) {acts : List HostAct} {k : Nat}
    (hguarded : Guarded (changes path acts)) :
    holder (changes path acts) (sunPath path) = some k ↔ Bound acts k := by
  rw [holder_eq_some_iff hguarded, changes, Runs.since_filterMap]
  simp only [Option.mem_def, exists_eq_right, change_taken, change_removed, hpath, and_true]
  rfl

/-- What is bound is not bound again before a start unlinks it. -/
theorem Follows.blocked (hpath : cStr path = sunPath path) {before after : List HostAct} {k : Nat}
    {s : Services} (h : Follows path (before ++ after) s) (hbound : Bound before k)
    (hafter : ∀ k', .call k' (.unlink true) ∉ after) (k' : Nat) : .call k' (.bind true) ∉ after := by
  intro hmem
  have hguarded := h.guarded
  rw [changes_append] at hguarded
  have hheld := (holder_changes hpath hguarded.of_append).mpr hbound
  refine not_taken hguarded hheld ?_ k'
    (List.mem_filterMap.mpr ⟨_, hmem, change_taken.mpr ⟨rfl, rfl⟩⟩)
  intro hremoved
  obtain ⟨a, ha, hchange⟩ := List.mem_filterMap.mp hremoved
  obtain ⟨⟨k'', rfl⟩, -⟩ := change_removed.mp hchange
  exact hafter k'' ha

theorem serverFactory_isOk {calls : ServerCalls}
    (h : (UnixSocket.serverFactory path calls).isOk = true) :
    ∃ fd : Nat, UnixSocket.serverFactory path calls = .ofData ⟨fd, path, true⟩ := by
  obtain ⟨_ | fd, _ | _, _ | _⟩ := calls
  all_goals first
    | exact ⟨fd, rfl⟩
    | cases h

theorem Follows.reached_iff {acts : List HostAct} {s : Services} (h : Follows path acts s)
    (hpath : cStr path = sunPath path) (k : Nat) :
    s.reached path = some k ↔ Serves path acts k := by
  unfold Services.reached
  rw [Option.filter_eq_some_iff, h.bound, holder_changes hpath h.guarded, Bool.and_eq_true,
    Bool.not_eq_true', Bool.eq_false_iff, Ne, h.ended]
  constructor
  · rintro ⟨hbound, hrunning, hset⟩
    cases hprogress : s.progress k with
    | returned r =>
      rw [hprogress] at hset
      have hk := h.progress k
      rw [hprogress, returned_iff] at hk
      obtain ⟨done, calls, hcalls, rfl⟩ := hk
      obtain ⟨fd, hfd⟩ := serverFactory_isOk hset
      exact ⟨⟨done, calls, fd, hcalls, hfd⟩, hbound, hrunning⟩
    | _ =>
      rw [hprogress] at hset
      cases hset
  · rintro ⟨⟨done, calls, fd, hcalls, hfd⟩, hbound, hrunning⟩
    have hk := h.progress k
    rw [returned_iff.mpr ⟨done, calls, hcalls, rfl⟩, hfd] at hk
    rw [← Option.some.inj hk]
    exact ⟨hbound, hrunning, rfl⟩

/-- A service whose factory has returned makes no more calls. -/
theorem callsBy_after {before after : List HostAct} {k : Nat} {done : Bool}
    {calls : ServerCalls} {s : Services} (h : Follows path (before ++ after) s)
    (hcalls : callsBy k before = serverTrace done calls) : callsBy k after = [] := by
  have hk := h.progress k
  have hbefore : (callsBy k before).foldlM (Progress.next path) .entered =
      some (.returned (UnixSocket.serverFactory path calls)) :=
    returned_iff.mpr ⟨done, calls, hcalls, rfl⟩
  rw [callsBy_append, List.foldlM_append, hbefore] at hk
  exact (foldlM_returned hk).1

/-- A service whose factory has returned, and that is not reached, is not reached again. -/
theorem not_reached_again (hpath : cStr path = sunPath path) {before after : List HostAct}
    {k : Nat} {done : Bool} {calls : ServerCalls} {s : Services}
    (h : Follows path (before ++ after) s) (hcalls : callsBy k before = serverTrace done calls)
    (hnot : ¬ Serves path before k) : ¬ Serves path (before ++ after) k := by
  intro hserves
  have hafter := callsBy_after h hcalls
  have hsame : callsBy k (before ++ after) = callsBy k before := by
    rw [callsBy_append, hafter, List.append_nil]
  have hguarded := h.guarded
  have hheld := (holder_changes hpath hguarded).mpr hserves.bound
  rw [changes_append] at hguarded hheld
  have hagain : .taken (sunPath path) k ∉ changes path after := by
    intro hmem
    obtain ⟨a, ha, hchange⟩ := List.mem_filterMap.mp hmem
    obtain ⟨rfl, -⟩ := change_taken.mp hchange
    have hcall : ServerCall.bind true ∈ callsBy k after :=
      List.mem_filterMap.mpr ⟨_, ha, if_pos rfl⟩
    rw [hafter] at hcall
    cases hcall
  have hbefore : holder (changes path before) (sunPath path) = some k :=
    not_not.mp fun hlost => lost_for_good hlost hagain hheld
  refine hnot ⟨?_, (holder_changes hpath hguarded.of_append).mp hbefore,
    fun hends => hserves.running (List.mem_append_left _ hends)⟩
  rw [← hsame]
  exact hserves.set_up

/-- After a start has unlinked the path it is free until a service binds it. -/
theorem Follows.free (hpath : cStr path = sunPath path) {before after : List HostAct} {k : Nat}
    {s : Services} (h : Follows path (before ++ .call k (.unlink true) :: after) s)
    (hafter : ∀ k', .call k' (.bind true) ∉ after) : s.bound (sunPath path) = none := by
  rw [h.bound, changes_at (change_removed.mpr ⟨⟨k, rfl⟩, hpath⟩)]
  refine holder_removed fun k' hmem => ?_
  obtain ⟨a, ha, hchange⟩ := List.mem_filterMap.mp hmem
  obtain ⟨rfl, -⟩ := change_taken.mp hchange
  exact hafter k' ha

/-! ## The command line program -/

theorem main_unconnected (host : Host) {calls : CliCalls} {fd : Nat}
    (hsocket : calls.client.socket = some fd) (h : connected calls = false) :
    main host calls = .ok ⟨-1, text "Failed opening UNIX domain socket on " ++
      UNIX_DOMAIN_SOCKET_PATH ++ text ": " ++ text "connect() failed" ++ text "\n"⟩ := by
  have hfactory : UnixSocket.clientFactory calls.client =
      .ofMsg .Error (text "connect() failed") := by
    unfold connected UnixSocket.clientFactory at h
    unfold UnixSocket.clientFactory
    rw [hsocket] at h ⊢
    dsimp only at h ⊢
    split
    · rfl
    · rename_i hconnect
      rw [if_neg hconnect] at h
      cases h
  unfold main requestNeighbors openClient
  rw [hfactory]
  rfl

/-- The path of `Config` fits. -/
theorem config_path : cStr UNIX_DOMAIN_SOCKET_PATH = sunPath UNIX_DOMAIN_SOCKET_PATH := by
  decide

/-- However the starts of services overlap, a request reaches no service but the one that
bound the path last, and that one only if no start has unlinked the path since; to unlink it is
enough, also for a start that fails after it.  A service that is not reached after its start
stays out of reach.  A path that is unlinked is free for the next, whoever left it behind, and
one that is not keeps every start from binding it. -/
theorem server_takeover (host : Host) {h : List (Runs.Event Services HostAct (Option Nat))}
    {s : Services} (hrun : HostRun UNIX_DOMAIN_SOCKET_PATH h s) :
    (∀ k, s.reached UNIX_DOMAIN_SOCKET_PATH = some k ↔
      Serves UNIX_DOMAIN_SOCKET_PATH (h.map Runs.Event.input) k) ∧
    (∀ before e after calls, h = before ++ e :: after → e.input = .request calls →
      (∀ k, e.output = some k →
        Serves UNIX_DOMAIN_SOCKET_PATH (before.map Runs.Event.input) k) ∧
      (e.output = none → ∀ fd, calls.client.socket = some fd → main host calls =
        .ok ⟨-1, text "Failed opening UNIX domain socket on " ++ UNIX_DOMAIN_SOCKET_PATH ++
          text ": " ++ text "connect() failed" ++ text "\n"⟩)) ∧
    (∀ before after k done calls, h = before ++ after →
      callsBy k (before.map Runs.Event.input) = serverTrace done calls →
      ¬ Serves UNIX_DOMAIN_SOCKET_PATH (before.map Runs.Event.input) k →
        ¬ Serves UNIX_DOMAIN_SOCKET_PATH (h.map Runs.Event.input) k) ∧
    (∀ before after k, h.map Runs.Event.input = before ++ .call k (.unlink true) :: after →
      (∀ k', .call k' (.bind true) ∉ after) →
        s.bound (sunPath UNIX_DOMAIN_SOCKET_PATH) = none) ∧
    ∀ before after k, h.map Runs.Event.input = before ++ after → Bound before k →
      (∀ k', .call k' (.unlink true) ∉ after) → ∀ k', .call k' (.bind true) ∉ after := by
  have hfollows := hrun.follows
  refine ⟨hfollows.reached_iff config_path, fun before e after calls hsplit hinput => ?_,
    fun before after k done calls hsplit hcalls hnot => ?_,
    fun before after k hinputs hafter => ?_,
    fun before after k hinputs hbound hafter => ?_⟩
  · subst hsplit
    obtain ⟨hbefore, hstep⟩ := hrun.split
    rw [hinput] at hstep
    rcases act_cases hstep with ⟨k, c, p, ha, -⟩ | ⟨k, ha, -⟩ | ⟨calls', ha, -, hsome, hreached⟩
    · cases ha
    · cases ha
    · cases ha
      refine ⟨fun k hk => ?_, fun hnone fd hsocket => ?_⟩
      · exact ((HostRun.follows hbefore).reached_iff config_path k).mp (hreached k hk)
      · rw [hnone] at hsome
        exact main_unconnected host hsocket hsome.symm
  · subst hsplit
    rw [List.map_append] at hfollows ⊢
    exact not_reached_again config_path hfollows hcalls hnot
  · rw [hinputs] at hfollows
    exact hfollows.free config_path hafter
  · rw [hinputs] at hfollows
    exact hfollows.blocked config_path hbound hafter

/-! ## Two starts that fail -/

namespace Small

def knocks (connect : Bool) : CliCalls :=
  ⟨⟨some 4, connect⟩, [], 0, [], .ok (.ofCodeData .Error [])⟩

/-- The second start may not unlink the path and cannot bind it.  The third may, and has no
descriptor left. -/
def starts : List HostAct :=
  [.call 0 (.unlink false), .call 0 (.socket (some 3)), .call 0 (.bind true), .call 0 (.listen true),
    .call 1 (.unlink false), .call 1 (.socket (some 3)), .call 1 (.bind false),
    .request (knocks true), .call 2 (.unlink true), .call 2 (.socket none), .request (knocks false)]

def reaches : List (Option Nat) :=
  [none, none, none, none, none, none, none, some 0, none, none, none]

theorem starts_follow : ∃ h s, Runs.follow (act UNIX_DOMAIN_SOCKET_PATH) .start starts =
    some (h, s) ∧ h.map Runs.Event.output = reaches ∧
    s.reached UNIX_DOMAIN_SOCKET_PATH = none ∧ s.ended 0 = false := ⟨_, _, rfl, rfl, rfl, rfl⟩

end Small

/-- The first service runs, and nobody is reached. -/
theorem server_takeover_small : ∃ h s, HostRun UNIX_DOMAIN_SOCKET_PATH h s ∧
    h.map Runs.Event.input = Small.starts ∧ h.map Runs.Event.output = Small.reaches ∧
    s.ended 0 = false ∧ ∀ k, ¬ Serves UNIX_DOMAIN_SOCKET_PATH Small.starts k := by
  obtain ⟨h, s, hfollow, houtputs, hreached, hruns⟩ := Small.starts_follow
  obtain ⟨hrun, hinputs⟩ := Runs.Run.follow (fun _ _ _ _ h => h) Runs.Run.nil hfollow
  have hserves := (server_takeover Small.host hrun).1
  rw [List.nil_append] at hrun hserves
  refine ⟨h, s, hrun, hinputs, houtputs, hruns, fun k => ?_⟩
  rw [← hinputs, ← hserves, hreached]
  exact fun hk => by cases hk

end NeighborDiscovery.Processes
