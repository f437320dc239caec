/-
Who closes the descriptor of a `UnixSocket`, and who unlinks its path.

The factories, the move constructor, the move assignment and the destructor are run
in any order over any number of objects.  A descriptor and the path of a server are
held by one object at a time, and this object releases them.  What `std::string`
leaves in a string that is moved from is any function `leftover` of its text; an
object that is moved from is no server, so this text is not used.
-/
import Mathlib.Data.List.Induction
import NeighborDiscovery.Network.Sockets.InetAddr
import NeighborDiscovery.Unix.UnixSocket
import NeighborDiscovery.Utility.Descriptors

namespace NeighborDiscovery

open Function Ownership Ownership.Members

namespace UnixSocket

/-! ## The members -/

section Members

variable (leftover : Bytes → Bytes)

/-- The two tests of the destructor, which the move assignment makes as well. -/
def release (s : UnixSocket) : List SysCall :=
  (if s.sockFd ≥ 0 then [.close s.sockFd] else []) ++
    if s.isServer && !s.path.isEmpty then [.unlink (cStr s.path)] else []

/-- `UnixSocket(UnixSocket&& other)`, with what is left of `other`. -/
def moveConstruct (other : UnixSocket) : UnixSocket × UnixSocket :=
  (⟨other.sockFd, other.path, other.isServer⟩, ⟨-1, leftover other.path, false⟩)

/-- `operator=(UnixSocket&& other)`. -/
def moveAssign (isThis : Bool) (this other : UnixSocket) :
    (UnixSocket × UnixSocket) × List SysCall :=
  if !isThis then
    ((⟨other.sockFd, other.path, other.isServer⟩, ⟨-1, leftover other.path, false⟩), this.release)
  else ((this, other), [])

def members : Members UnixSocket SysCall where
  moveConstruct := moveConstruct leftover
  moveAssign := moveAssign leftover false
  assignSelf s := ((moveAssign leftover true s s).1.1, (moveAssign leftover true s s).2)
  destroy := release

end Members

/-! ## The factories -/

/-- The system calls of `serverFactory`. -/
def serverCalls (path : Bytes) (calls : ServerCalls) : List SysCall :=
  .unlink (cStr path) ::
    match calls.socket with
    | none => []
    | some fd =>
      if calls.bind = false then [.opened fd, .close fd]
      else if calls.listen = false then [.opened fd, .close fd]
      else [.opened fd]

def acceptCalls (s : UnixSocket) (accept : Option Nat) : List SysCall :=
  if !s.isServer || s.sockFd < 0 then []
  else
    match accept with
    | none => []
    | some cfd => [.opened cfd]

def clientCalls (calls : ClientCalls) : List SysCall :=
  match calls.socket with
  | none => []
  | some fd => if calls.connect = false then [.opened fd, .close fd] else [.opened fd]

/-! ## The steps of a process -/

inductive Action where
  | serverFactory (id : Nat) (path : Bytes) (calls : ServerCalls)
  | clientFactory (id : Nat) (calls : ClientCalls)
  | acceptClient (id server : Nat) (accept : Option Nat)
  | object (op : Op)

/-- The object an action destroys or assigns over. -/
def Action.subject : Action → Option Nat
  | .object op => op.subject
  | _ => none

/-- The path given to a server. -/
def Action.path? : Action → Option Bytes
  | .serverFactory _ path _ => some path
  | _ => none

/-- A result whose data is an object under the name `id`. -/
def makeFrom (leftover : Bytes → Bytes) (p : Process UnixSocket) (id : Nat)
    (r : FunctionReturn UnixSocket) (calls : List SysCall) :
    Option (Process UnixSocket × List SysCall) :=
  p.make id (Process.returnedData (members leftover) r).1
    (calls ++ (Process.returnedData (members leftover) r).2)

def act (leftover : Bytes → Bytes) (p : Process UnixSocket) :
    Action → Option (Process UnixSocket × List SysCall)
  | .serverFactory id path calls =>
    makeFrom leftover p id (serverFactory path calls) (serverCalls path calls)
  | .clientFactory id calls => makeFrom leftover p id (clientFactory calls) (clientCalls calls)
  | .acceptClient id server accept =>
    match p.objects server with
    | none => none
    | some s => makeFrom leftover p id (s.acceptClient accept) (s.acceptCalls accept)
  | .object op => p.operate (members leftover) op

def Acts (leftover : Bytes → Bytes) (p : Process UnixSocket) (a : Action) (calls : List SysCall)
    (p' : Process UnixSocket) : Prop := act leftover p a = some (p', calls)

abbrev SocketEvent := Runs.Event (Process UnixSocket) Action (List SysCall)

abbrev SocketRun (leftover : Bytes → Bytes) (h : List SocketEvent) (p : Process UnixSocket) :
    Prop := Runs.Run (Acts leftover) Process.start h p

/-! ## What an object holds -/

def descriptor (s : UnixSocket) : Option Int := if s.sockFd ≥ 0 then some s.sockFd else none

/-- The path that a server will unlink. -/
def served (s : UnixSocket) : Option Bytes :=
  if s.isServer && !s.path.isEmpty then some (cStr s.path) else none

section HandsOn

variable (leftover : Bytes → Bytes)

theorem release_descriptor (s : UnixSocket) :
    s.release.filterMap SysCall.onDescriptor = releases s.descriptor := by
  unfold release descriptor
  rw [List.filterMap_append]
  by_cases hfd : s.sockFd ≥ 0
  · rw [if_pos hfd, if_pos hfd]
    split <;> rfl
  · rw [if_neg hfd, if_neg hfd]
    split <;> rfl

theorem release_path (s : UnixSocket) :
    s.release.filterMap SysCall.onPath = releases s.served := by
  unfold release served
  rw [List.filterMap_append]
  by_cases hserver : (s.isServer && !s.path.isEmpty) = true
  · rw [if_pos hserver, if_pos hserver]
    split <;> rfl
  · rw [if_neg hserver, if_neg hserver]
    split <;> rfl

theorem handsOn_descriptor : (members leftover).HandsOn descriptor SysCall.onDescriptor where
  moveConstruct _ := ⟨rfl, rfl⟩
  moveAssign this _ := ⟨rfl, rfl, this.release_descriptor⟩
  assignSelf _ := rfl
  destroy := release_descriptor

theorem handsOn_path : (members leftover).HandsOn served SysCall.onPath where
  moveConstruct _ := ⟨rfl, rfl⟩
  moveAssign this _ := ⟨rfl, rfl, this.release_path⟩
  assignSelf _ := rfl
  destroy := release_path

end HandsOn

/-! ## What a step does -/

/-- What a factory makes and calls.  It returns the descriptor it opened or closes it,
and the path that a server will unlink is unlinked before. -/
structure Makes (a : Action) (made : Option UnixSocket) (calls : List SysCall) : Prop where
  subject : a.subject = none
  descriptor : descriptorEvents calls = acquires (made.bind descriptor) ∨
    made = none ∧ ∃ fd, descriptorEvents calls = [.acquired fd, .released fd]
  unlinked : calls.filterMap SysCall.onPath = releases (a.path?.map cStr)
  served : made.bind served = none ∨ made.bind served = a.path?.map cStr

section Steps

variable {leftover : Bytes → Bytes} {p p' : Process UnixSocket} {a : Action}
  {calls : List SysCall}

theorem Makes.returned {r : FunctionReturn UnixSocket} (h : Makes a r.data calls) :
    Makes a (Process.returnedData (members leftover) r).1
      (calls ++ (Process.returnedData (members leftover) r).2) := by
  obtain ⟨hheld, hclosed⟩ := Process.returnedData_held (handsOn_descriptor leftover) r
  obtain ⟨hserved, hunlinked⟩ := Process.returnedData_held (handsOn_path leftover) r
  have hevents : descriptorEvents (calls ++ (Process.returnedData (members leftover) r).2) =
      descriptorEvents calls := by
    rw [Process.descriptorEvents_append]
    exact (congrArg _ hclosed).trans (List.append_nil _)
  refine ⟨h.subject, ?_, ?_, ?_⟩
  · rw [hevents, hheld]
    rcases h.descriptor with hmade | ⟨hnone, hfd⟩
    · exact Or.inl hmade
    · refine Or.inr ⟨?_, hfd⟩
      rw [Process.returnedData_none hnone]
  · rw [List.filterMap_append, hunlinked, List.append_nil]
    exact h.unlinked
  · rw [hserved]
    exact h.served

theorem makes_serverFactory (id : Nat) (path : Bytes) (calls : ServerCalls) :
    Makes (.serverFactory id path calls) (serverFactory path calls).data
      (serverCalls path calls) := by
  obtain ⟨socket, bind, listen⟩ := calls
  cases socket with
  | none => exact ⟨rfl, Or.inl rfl, rfl, Or.inl rfl⟩
  | some fd =>
    cases bind with
    | false => exact ⟨rfl, Or.inr ⟨rfl, fd, rfl⟩, rfl, Or.inl rfl⟩
    | true =>
      cases listen with
      | false => exact ⟨rfl, Or.inr ⟨rfl, fd, rfl⟩, rfl, Or.inl rfl⟩
      | true =>
        refine ⟨rfl, Or.inl rfl, rfl, ?_⟩
        show served ⟨fd, path, true⟩ = none ∨ served ⟨fd, path, true⟩ = some (cStr path)
        unfold served
        split
        · exact Or.inr rfl
        · exact Or.inl rfl

theorem makes_clientFactory (id : Nat) (calls : ClientCalls) :
    Makes (.clientFactory id calls) (clientFactory calls).data (clientCalls calls) := by
  obtain ⟨socket, connect⟩ := calls
  cases socket with
  | none => exact ⟨rfl, Or.inl rfl, rfl, Or.inl rfl⟩
  | some fd =>
    cases connect with
    | false => exact ⟨rfl, Or.inr ⟨rfl, fd, rfl⟩, rfl, Or.inl rfl⟩
    | true => exact ⟨rfl, Or.inl rfl, rfl, Or.inl rfl⟩

theorem makes_acceptClient (id server : Nat) (s : UnixSocket) (accept : Option Nat) :
    Makes (.acceptClient id server accept) (s.acceptClient accept).data
      (s.acceptCalls accept) := by
  unfold acceptClient acceptCalls
  by_cases hno : (!s.isServer || s.sockFd < 0) = true
  · rw [if_pos hno, if_pos hno]
    exact ⟨rfl, Or.inl rfl, rfl, Or.inl rfl⟩
  · rw [if_neg hno, if_neg hno]
    cases accept with
    | none => exact ⟨rfl, Or.inl rfl, rfl, Or.inl rfl⟩
    | some cfd => exact ⟨rfl, Or.inl rfl, rfl, Or.inl rfl⟩

theorem makeFrom_makes {id : Nat} {r : FunctionReturn UnixSocket} {calls₀ : List SysCall}
    (h : makeFrom leftover p id r calls₀ = some (p', calls)) (hmakes : Makes a r.data calls₀) :
    ∃ made, Makes a made calls ∧ p.make id made calls = some (p', calls) := by
  obtain ⟨-, -, heq⟩ := Process.make_eq_some h
  cases heq
  exact ⟨_, hmakes.returned, h⟩

/-- A step is a factory under a new name, or an operation on live objects. -/
theorem acts_cases (h : Acts leftover p a calls p') :
    (∃ id made, Makes a made calls ∧ p.make id made calls = some (p', calls)) ∨
      ∃ op, a = .object op ∧ p.operate (members leftover) op = some (p', calls) := by
  unfold Acts at h
  cases a with
  | serverFactory id path calls₀ =>
    exact Or.inl ⟨id, makeFrom_makes h (makes_serverFactory id path calls₀)⟩
  | clientFactory id calls₀ =>
    exact Or.inl ⟨id, makeFrom_makes h (makes_clientFactory id calls₀)⟩
  | acceptClient id server accept =>
    simp only [act] at h
    split at h
    · cases h
    · exact Or.inl ⟨id, makeFrom_makes h (makes_acceptClient id server _ accept)⟩
  | object op => exact Or.inr ⟨op, rfl, h⟩

/-- A step keeps the descriptors, and closes one of them only for the object that
held it. -/
theorem acts_sound (h : Acts leftover p a calls p') (hsound : Process.Sound descriptor p) :
    (Proper p.opened (descriptorEvents calls) ∧ Process.Sound descriptor p') ∧
      ∀ fd, .close fd ∈ calls → (∀ id, ownerOf descriptor p'.objects id ≠ some fd) ∧
        ∀ id, ownerOf descriptor p.objects id = some fd → a.subject = some id := by
  rcases acts_cases h with ⟨id, made, hmakes, hmake⟩ | ⟨op, rfl, hop⟩
  · refine ⟨Process.make_sound hmake hsound hmakes.descriptor, fun fd hfd => ?_⟩
    obtain ⟨hbefore, hafter⟩ := Process.make_closes hmake hsound hmakes.descriptor hfd
    exact ⟨hafter, fun id hid => absurd hid (hbefore id)⟩
  · obtain ⟨-, hproper, hsound'⟩ :=
      Process.operate_sound (handsOn_descriptor leftover) hop hsound
    exact ⟨⟨hproper, hsound'⟩, fun fd hfd =>
      (Process.operate_closes (handsOn_descriptor leftover) hop hsound hfd).symm⟩

theorem acts_opened (h : Acts leftover p a calls p') : p'.opened = openAfter p.opened calls := by
  rcases acts_cases h with ⟨id, made, -, hmake⟩ | ⟨op, -, hop⟩
  · obtain ⟨-, -, heq⟩ := Process.make_eq_some hmake
    cases heq
    rfl
  · exact (Process.operate_eq_some hop).2

theorem count_unlink (calls : List SysCall) (path : Bytes) :
    calls.count (.unlink path) = (calls.filterMap SysCall.onPath).count (.released path) :=
  count_view (fun c => by cases c <;> simp [SysCall.onPath]) calls

/-- What a step does to the paths in use.  Apart from the path it is given, it unlinks
one only for the server that has it, which is destroyed or assigned over. -/
structure KeepsPaths (a : Action) (p p' : Process UnixSocket) (calls : List SysCall)
    (paths paths' : List Bytes) : Prop where
  owned : OwnedOnce (ownerOf served p'.objects) paths'
  given : ∀ path ∈ paths', path ∈ paths ∨ a.path?.map cStr = some path
  unlinked : ∀ path, a.path?.map cStr ≠ some path →
    (calls.count (.unlink path) = 0 ∧ (path ∈ paths' ↔ path ∈ paths)) ∨
    (calls.count (.unlink path) = 1 ∧ path ∈ paths ∧ path ∉ paths' ∧
      ∃ id, a.subject = some id ∧ ownerOf served p.objects id = some path)

theorem makes_keepsPaths {id : Nat} {made : Option UnixSocket} (hmakes : Makes a made calls)
    (hmake : p.make id made calls = some (p', calls)) {paths : List Bytes}
    (hown : OwnedOnce (ownerOf served p.objects) paths)
    (hfresh : ∀ path, a.path?.map cStr = some path → path ∉ paths) :
    ∃ paths', KeepsPaths a p p' calls paths paths' := by
  obtain ⟨hid, -, heq⟩ := Process.make_eq_some hmake
  cases heq
  have hgiven : ∀ path, made.bind served = some path → a.path?.map cStr = some path := by
    intro path hpath
    rcases hmakes.served with hnone | hsome
    · rw [hnone] at hpath
      cases hpath
    · exact hsome.symm.trans hpath
  obtain ⟨-, hcreated⟩ := hown.create (ownerOf_none hid)
    fun path hpath => hfresh path (hgiven path hpath)
  refine ⟨outstanding paths (acquires (made.bind served)), ?_, fun path hpath => ?_,
    fun path hne => Or.inl ⟨?_, ?_⟩⟩
  · dsimp only
    rw [ownerOf_update]
    exact hcreated
  · exact (mem_outstanding_acquires.mp hpath).symm.imp_right (hgiven path)
  · rw [count_unlink, hmakes.unlinked, count_releases, if_neg hne]
  · rw [mem_outstanding_acquires]
    exact or_iff_right fun hnew => hne (hgiven path hnew)

theorem operate_keepsPaths {op : Op} (hop : p.operate (members leftover) op = some (p', calls))
    {paths : List Bytes} (hown : OwnedOnce (ownerOf served p.objects) paths) :
    ∃ paths', KeepsPaths (.object op) p p' calls paths paths' := by
  obtain ⟨hstep, -⟩ := Process.operate_eq_some hop
  obtain ⟨hcalls, -, hown'⟩ := (handsOn_path leftover).step hstep hown
  rcases hcalls with hnil | ⟨id, hsubject, hreleases⟩
  · rw [hnil] at hown'
    refine ⟨paths, hown', fun path hpath => Or.inl hpath, fun path _ => Or.inl ⟨?_, Iff.rfl⟩⟩
    rw [count_unlink, hnil]
    rfl
  · rw [hreleases] at hown'
    refine ⟨_, hown', fun path hpath => ?_, fun path _ => ?_⟩
    · exact Or.inl ((mem_outstanding_releases hown.nodup).mp hpath).2
    · rw [count_unlink, hreleases, count_releases, mem_outstanding_releases hown.nodup]
      by_cases howner : ownerOf served p.objects id = some path
      · rw [if_pos howner]
        exact Or.inr ⟨rfl, (hown.mem_iff path).mpr ⟨id, howner⟩, fun hboth => hboth.1 howner,
          id, hsubject, howner⟩
      · rw [if_neg howner]
        exact Or.inl ⟨rfl, and_iff_right howner⟩

theorem acts_paths (h : Acts leftover p a calls p') {paths : List Bytes}
    (hown : OwnedOnce (ownerOf served p.objects) paths)
    (hfresh : ∀ path, a.path?.map cStr = some path → path ∉ paths) :
    ∃ paths', KeepsPaths a p p' calls paths paths' := by
  rcases acts_cases h with ⟨id, made, hmakes, hmake⟩ | ⟨op, rfl, hop⟩
  · exact makes_keepsPaths hmakes hmake hown hfresh
  · exact operate_keepsPaths hop hown

end Steps

/-! ## Runs -/

/-- The paths given to servers, as the kernel reads them. -/
def pathsGiven (h : List SocketEvent) : List Bytes := (h.filterMap (·.input.path?)).map cStr

/-- A path that was given to a server is unlinked once, as soon as no object has it. -/
def UnlinkedOnce (path : Bytes) (after : List SocketEvent) (p : Process UnixSocket) : Prop :=
  ((Process.made after).count (.unlink path) = 0 ∧
      ∃! id, ownerOf served p.objects id = some path) ∨
    ((Process.made after).count (.unlink path) = 1 ∧ ∀ id, ownerOf served p.objects id ≠ some path)

/-- A step that destroys or assigns over the last server that has a path. -/
def EndsServer (path : Bytes) (e : SocketEvent) : Prop :=
  (∃ id s, e.input.subject = some id ∧ e.before.objects id = some s ∧ s.isServer = true ∧
      s.served = some path) ∧
    ∀ id, ownerOf served e.after.objects id ≠ some path

theorem pathsGiven_append (h₁ h₂ : List SocketEvent) :
    pathsGiven (h₁ ++ h₂) = pathsGiven h₁ ++ pathsGiven h₂ := by
  unfold pathsGiven
  rw [List.filterMap_append, List.map_append]

theorem pathsGiven_singleton (e : SocketEvent) :
    pathsGiven [e] = (e.input.path?.map cStr).toList := by
  unfold pathsGiven
  cases hpath : e.input.path? with
  | none => simp [hpath]
  | some path => simp [hpath]

theorem mem_pathsGiven_of_mem {h : List SocketEvent} {e : SocketEvent} (he : e ∈ h) {path : Bytes}
    (hpath : e.input.path?.map cStr = some path) : path ∈ pathsGiven h := by
  obtain ⟨h₁, h₂, rfl⟩ := List.append_of_mem he
  rw [List.append_cons, pathsGiven_append, pathsGiven_append, pathsGiven_singleton, hpath]
  simp

theorem served_isServer {s : UnixSocket} {path : Bytes} (h : s.served = some path) :
    s.isServer = true := by
  unfold served at h
  split at h
  · rename_i hboth
    exact (Bool.and_eq_true _ _ ▸ hboth).1
  · cases h

section OwnsOnce

variable {leftover : Bytes → Bytes} {h : List SocketEvent} {p p' : Process UnixSocket}

/-- Where servers are given distinct paths, each path in use has one server, and it was
given to one. -/
theorem paths_owned (hrun : SocketRun leftover h p) (hdistinct : (pathsGiven h).Nodup) :
    ∃ paths, OwnedOnce (ownerOf served p.objects) paths ∧ ∀ path ∈ paths, path ∈ pathsGiven h := by
  induction hrun with
  | nil => exact ⟨[], ownedOnce_nil, fun path hpath => absurd hpath List.not_mem_nil⟩
  | @snoc h p a calls p' hrun hacts ih =>
    rw [pathsGiven_append, pathsGiven_singleton, List.nodup_append] at hdistinct
    obtain ⟨hpast, -, hdisjoint⟩ := hdistinct
    obtain ⟨paths, hown, hgiven⟩ := ih hpast
    obtain ⟨paths', hkeeps⟩ := acts_paths hacts hown fun path hpath hmem =>
      hdisjoint path (hgiven path hmem) path (Option.mem_toList.mpr hpath) rfl
    refine ⟨paths', hkeeps.owned, fun path hpath => ?_⟩
    rw [pathsGiven_append, pathsGiven_singleton, List.mem_append, Option.mem_toList]
    exact (hkeeps.given path hpath).imp_left (hgiven path)

/-- A step that is not given the path leaves it unlinked once, and unlinks it only
where it ends the last server that has it. -/
theorem UnlinkedOnce.snoc {path : Bytes} {after : List SocketEvent} {e : SocketEvent}
    (h : UnlinkedOnce path after e.before) {paths paths' : List Bytes}
    (hown : OwnedOnce (ownerOf served e.before.objects) paths)
    (hkeeps : KeepsPaths e.input e.before e.after e.output paths paths')
    (hother : e.input.path?.map cStr ≠ some path) :
    UnlinkedOnce path (after ++ [e]) e.after ∧ (.unlink path ∈ e.output → EndsServer path e) := by
  have hown' := hkeeps.owned
  unfold UnlinkedOnce at h ⊢
  rw [Process.made_snoc, List.count_append, ← hown'.mem_iff_existsUnique, ← hown'.not_mem_iff]
  rw [← hown.mem_iff_existsUnique, ← hown.not_mem_iff] at h
  rcases hkeeps.unlinked path hother with ⟨hnone, hkept⟩ | ⟨hone, hmem, hgone, id, hsubject, howner⟩
  · rw [hnone, hkept]
    exact ⟨h, fun hcall => absurd hcall (List.count_eq_zero.mp hnone)⟩
  · have hzero : (Process.made after).count (.unlink path) = 0 := by
      rcases h with ⟨hzero, -⟩ | ⟨-, hnot⟩
      · exact hzero
      · exact absurd hmem hnot
    rw [hone, hzero]
    obtain ⟨s, hs, hserves⟩ := Option.bind_eq_some_iff.mp howner
    exact ⟨Or.inr ⟨rfl, hgone⟩, fun _ => ⟨⟨id, s, hsubject, hs, served_isServer hserves, hserves⟩,
      (hown'.not_mem_iff path).mp hgone⟩⟩

theorem served_after {e : SocketEvent} {before after : List SocketEvent} {path : Bytes}
    (hrun : SocketRun leftover (before ++ e :: after) p)
    (hdistinct : (pathsGiven (before ++ e :: after)).Nodup)
    (hpath : e.input.path?.map cStr = some path)
    (hserved : ∃ id, ownerOf served e.after.objects id = some path) :
    UnlinkedOnce path after p ∧ ∀ e' ∈ after, .unlink path ∈ e'.output → EndsServer path e' := by
  induction after using List.reverseRecOn generalizing p with
  | nil =>
    obtain ⟨paths, hown, -⟩ := paths_owned hrun hdistinct
    obtain ⟨-, -, rfl⟩ := hrun.last
    refine ⟨Or.inl ⟨rfl, ?_⟩, fun e' he' => absurd he' List.not_mem_nil⟩
    rw [← hown.mem_iff_existsUnique, hown.mem_iff]
    exact hserved
  | append_singleton after e' ih =>
    rw [← List.cons_append, ← List.append_assoc] at hrun hdistinct
    obtain ⟨hbefore, hacts, rfl⟩ := hrun.last
    rw [pathsGiven_append, pathsGiven_singleton, List.nodup_append] at hdistinct
    obtain ⟨hpast, -, hdisjoint⟩ := hdistinct
    obtain ⟨hunlinked, hends⟩ := ih hbefore hpast
    obtain ⟨paths, hown, hgiven⟩ := paths_owned hbefore hpast
    have hother : e'.input.path?.map cStr ≠ some path := fun hsame =>
      hdisjoint path (mem_pathsGiven_of_mem (by simp) hpath) path (Option.mem_toList.mpr hsame) rfl
    obtain ⟨paths', hkeeps⟩ := acts_paths hacts hown fun q hq hmem =>
      hdisjoint q (hgiven q hmem) q (Option.mem_toList.mpr hq) rfl
    obtain ⟨hunlinked', hlast⟩ := hunlinked.snoc hown hkeeps hother
    refine ⟨hunlinked', fun e'' he'' => ?_⟩
    rcases List.mem_append.mp he'' with hpre | hmem
    · exact hends e'' hpre
    · rw [List.mem_singleton.mp hmem]
      exact hlast

theorem serverFactory_data {path : Bytes} {calls : ServerCalls}
    (hok : (serverFactory path calls).isOk = true) :
    ∃ fd : Nat, (serverFactory path calls).data = some ⟨fd, path, true⟩ := by
  unfold serverFactory at hok ⊢
  split at hok
  · cases hok
  · rename_i fd _
    split at hok
    · cases hok
    · rename_i hbind
      split at hok
      · cases hok
      · rename_i hlisten
        rw [if_neg hbind, if_neg hlisten]
        exact ⟨fd, rfl⟩

/-- A server that a factory returns has the path it was given. -/
theorem served_of_isOk {id : Nat} {path : Bytes} {calls : ServerCalls} {output : List SysCall}
    (h : Acts leftover p (.serverFactory id path calls) output p')
    (hok : (serverFactory path calls).isOk = true) (hne : path ≠ []) :
    ownerOf served p'.objects id = some (cStr path) := by
  obtain ⟨fd, hdata⟩ := serverFactory_data hok
  obtain ⟨-, -, heq⟩ := Process.make_eq_some h
  cases heq
  dsimp only
  obtain ⟨hserved, -⟩ :=
    Process.returnedData_held (handsOn_path leftover) (serverFactory path calls)
  rw [ownerOf_update, update_self, hserved, hdata]
  show served ⟨fd, path, true⟩ = some (cStr path)
  simp [served, hne]

/-- In every run the open descriptors are held by one object each and closed for it
alone, and a path that a server was given is unlinked when its last server ends. -/
theorem owns_once (hrun : SocketRun leftover h p) :
    (Proper [] (descriptorEvents (Process.made h)) ∧
      OwnedOnce (ownerOf descriptor p.objects) (openAfter [] (Process.made h)) ∧
      ∀ e ∈ h, ∀ fd, .close fd ∈ e.output →
        (∀ id, ownerOf descriptor e.after.objects id ≠ some fd) ∧
        ∀ id, ownerOf descriptor e.before.objects id = some fd → e.input.subject = some id) ∧
    ((∀ id, p.objects id = none) → openAfter [] (Process.made h) = []) ∧
    ((pathsGiven h).Nodup → ∀ before e after id path calls, h = before ++ e :: after →
      e.input = .serverFactory id path calls → (serverFactory path calls).isOk = true →
      path ≠ [] → UnlinkedOnce (cStr path) after p ∧
        ∀ e' ∈ after, .unlink (cStr path) ∈ e'.output → EndsServer (cStr path) e') := by
  have hsteps : ∀ e : SocketEvent, True → Acts leftover e.before e.input e.output e.after →
      Process.Sound descriptor e.before → Proper e.before.opened (descriptorEvents e.output) ∧
        Process.Sound descriptor e.after := fun e _ hacts hsound => (acts_sound hacts hsound).1
  obtain ⟨hproper, hsound⟩ := Process.proper_run (fun p a c p' => acts_opened) hsteps hrun
    fun e _ => trivial
  have hopened := Process.opened_eq (fun p a c p' => acts_opened) hrun
  unfold Process.Sound at hsound
  rw [hopened] at hsound
  refine ⟨⟨hproper, hsound, fun e he => ?_⟩, fun hdead => ?_, ?_⟩
  · obtain ⟨h₁, h₂, -, hbefore, hacts⟩ := hrun.event he
    obtain ⟨-, hsound⟩ := Process.proper_run (fun p a c p' => acts_opened) hsteps hbefore
      fun e _ => trivial
    exact (acts_sound hacts hsound).2
  · exact hsound.eq_nil fun id => ownerOf_none (hdead id)
  · intro hdistinct before e after id path calls hsplit hinput hok hne
    rw [hsplit] at hrun hdistinct
    obtain ⟨-, hacts⟩ := hrun.split
    rw [hinput] at hacts
    refine served_after hrun hdistinct ?_ ⟨id, served_of_isOk hacts hok hne⟩
    rw [hinput]
    rfl

end OwnsOnce

/-! ## A server that is assigned over -/

namespace Small

/-- Two servers and a client.  The second server is moved, and then takes the place
of the first. -/
def actions : List Action :=
  [.serverFactory 0 [97] ⟨some 3, true, true⟩, .serverFactory 1 [98] ⟨some 4, true, true⟩,
    .acceptClient 2 1 (some 5), .object (.moveConstruct 3 1), .object (.moveAssign 0 3),
    .object (.destroy 0), .object (.destroy 1), .object (.destroy 2), .object (.destroy 3)]

def calls : List SysCall :=
  [.unlink [97], .opened 3, .unlink [98], .opened 4, .opened 5, .close 3, .unlink [97], .close 4,
    .unlink [98], .close 5]

theorem run : ∃ h p, SocketRun (fun _ => []) h p ∧ h.map (·.input) = actions ∧
    Process.made h = calls ∧ ∀ id, p.objects id = none := by
  refine Process.follow_run rfl fun id => ?_
  match id with
  | 0 => rfl
  | 1 => rfl
  | 2 => rfl
  | 3 => rfl
  | id + 4 => rfl

end Small

theorem owns_once_small : ∃ h p, SocketRun (fun _ => []) h p ∧ h.map (·.input) = Small.actions ∧
    Process.made h = Small.calls ∧ Proper [] (descriptorEvents (Process.made h)) ∧
    openAfter [] (Process.made h) = [] ∧ UnlinkedOnce [97] h.tail p := by
  obtain ⟨h, p, hrun, hinputs, hmade, hdead⟩ := Small.run
  obtain ⟨⟨hproper, -, -⟩, hclosed, hpaths⟩ := owns_once hrun
  have hgiven : pathsGiven h = [[97], [98]] := by
    have heq : h.filterMap (fun e => e.input.path?) = (h.map (·.input)).filterMap Action.path? := by
      rw [List.filterMap_map]
      rfl
    unfold pathsGiven
    rw [heq, hinputs]
    rfl
  refine ⟨h, p, hrun, hinputs, hmade, hproper, hclosed hdead, ?_⟩
  cases h with
  | nil => cases hinputs
  | cons e after =>
    refine (hpaths ?_ [] e after 0 [97] ⟨some 3, true, true⟩ rfl ?_ rfl (by simp)).1
    · rw [hgiven]
      decide
    · exact (List.cons.inj hinputs).1

end UnixSocket

end NeighborDiscovery
