/-
Descriptors, and a process whose objects hold them.

The kernel returns a descriptor that is not open, and closing one that is not open
changes nothing.  A process has the live objects of a class and the descriptors
that are open.
-/
import NeighborDiscovery.Library.Ownership
import NeighborDiscovery.Library.Runs
import NeighborDiscovery.Utility.FunctionReturn

namespace NeighborDiscovery

open Function Ownership Ownership.Members

/-- The system calls of the two socket classes that concern what they own; `opened` is
a call of `socket` or `accept` that returns a descriptor. -/
inductive SysCall where
  | opened (fd : Int)
  | close (fd : Int)
  | unlink (path : Bytes)
deriving DecidableEq

namespace SysCall

def onDescriptor : SysCall → Option (Event Int)
  | .opened fd => some (.acquired fd)
  | .close fd => some (.released fd)
  | .unlink _ => none

def onPath : SysCall → Option (Event Bytes)
  | .unlink path => some (.released path)
  | _ => none

def returned : SysCall → Option Int
  | .opened fd => some fd
  | _ => none

end SysCall

/-- What the calls do to the descriptors. -/
def descriptorEvents (calls : List SysCall) : List (Event Int) :=
  calls.filterMap SysCall.onDescriptor

/-- The descriptors that are open after some calls. -/
def openAfter (opened : List Int) (calls : List SysCall) : List Int :=
  outstanding opened (descriptorEvents calls)

/-- The calls of one kind are counted by their events. -/
theorem count_view {ρ : Type} [DecidableEq ρ] {view : SysCall → Option (Event ρ)} {c : SysCall}
    {e : Event ρ} (h : ∀ c', view c' = some e ↔ c' = c) (calls : List SysCall) :
    calls.count c = (calls.filterMap view).count e := by
  induction calls with
  | nil => rfl
  | cons c' calls ih =>
    rw [List.count_cons, List.filterMap_cons, ih]
    cases hview : view c' with
    | none =>
      have hne : c' ≠ c := fun heq => by simp [(h c').mpr heq] at hview
      simp [hne]
    | some e' =>
      have hiff : e' = e ↔ c' = c := by rw [← h c', hview, Option.some_inj]
      simp [List.count_cons, hiff]

structure Process (σ : Type) where
  objects : Objects σ
  opened : List Int

namespace Process

variable {σ : Type}

def start : Process σ := ⟨fun _ => none, []⟩

/-- A function that may return an object, under a name that is not in use. -/
def make (p : Process σ) (id : Nat) (made : Option σ) (calls : List SysCall) :
    Option (Process σ × List SysCall) :=
  if (p.objects id).isNone && calls.all fun c => c.returned.all fun fd => !p.opened.contains fd then
    some (⟨update p.objects id made, openAfter p.opened calls⟩, calls)
  else none

/-- A move, an assignment or a destruction. -/
def operate (M : Members σ SysCall) (p : Process σ) (op : Op) :
    Option (Process σ × List SysCall) :=
  (M.step p.objects op).map fun r => (⟨r.1, openAfter p.opened r.2⟩, r.2)

/-- The data of a result, moved there from a temporary or a local object. -/
def returnedData (M : Members σ SysCall) (r : FunctionReturn σ) : Option σ × List SysCall :=
  match r.data with
  | none => (none, [])
  | some s => (some (M.returned s).1, (M.returned s).2)

section Facts

variable {p p' : Process σ} {calls : List SysCall}

theorem make_eq_some {id : Nat} {made : Option σ} {r : Process σ × List SysCall}
    (h : p.make id made calls = some r) :
    p.objects id = none ∧ (∀ fd, .opened fd ∈ calls → fd ∉ p.opened) ∧
      r = (⟨update p.objects id made, openAfter p.opened calls⟩, calls) := by
  unfold make at h
  split at h
  · rename_i hfree
    rw [Bool.and_eq_true, List.all_eq_true, Option.isNone_iff_eq_none] at hfree
    refine ⟨hfree.1, fun fd hfd hopen => ?_, (Option.some.inj h).symm⟩
    have hnot := hfree.2 _ hfd
    simp [SysCall.returned, hopen] at hnot
  · cases h

theorem operate_eq_some {M : Members σ SysCall} {op : Op} {r : Process σ × List SysCall}
    (h : p.operate M op = some r) :
    M.step p.objects op = some (r.1.objects, r.2) ∧ r.1.opened = openAfter p.opened r.2 := by
  obtain ⟨q, hq, hr⟩ := Option.map_eq_some_iff.mp h
  rw [← hr]
  exact ⟨hq, rfl⟩

end Facts

/-- The object returned holds what the local one held, and the local one releases
nothing. -/
theorem returnedData_held {ρ : Type} {M : Members σ SysCall} {held : σ → Option ρ}
    {view : SysCall → Option (Event ρ)} (hM : M.HandsOn held view) (r : FunctionReturn σ) :
    (returnedData M r).1.bind held = r.data.bind held ∧
      (returnedData M r).2.filterMap view = [] := by
  unfold returnedData
  cases r.data with
  | none => exact ⟨rfl, rfl⟩
  | some s => exact hM.returned s

theorem returnedData_none {M : Members σ SysCall} {r : FunctionReturn σ} (h : r.data = none) :
    returnedData M r = (none, []) := by
  unfold returnedData
  rw [h]

/-- Each open descriptor is held by one object, and what an object holds is open. -/
def Sound (held : σ → Option Int) (p : Process σ) : Prop :=
  OwnedOnce (ownerOf held p.objects) p.opened

theorem sound_start (held : σ → Option Int) : Sound held (start : Process σ) := ownedOnce_nil

section Steps

variable {held : σ → Option Int} {p p' : Process σ} {calls : List SysCall}

theorem released_of_close {fd : Int} (h : .close fd ∈ calls) :
    .released fd ∈ descriptorEvents calls := List.mem_filterMap.mpr ⟨_, h, rfl⟩

theorem opened_of_acquired {fd : Int} (h : .acquired fd ∈ descriptorEvents calls) :
    .opened fd ∈ calls := by
  obtain ⟨c, hc, hview⟩ := List.mem_filterMap.mp h
  cases c with
  | opened fd' =>
    cases hview
    exact hc
  | close fd' => cases hview
  | unlink path => cases hview

/-- A function that returns an object with the descriptor it opened, or that closes
it again, keeps the descriptors. -/
theorem make_sound {id : Nat} {made : Option σ} {r : Process σ × List SysCall}
    (h : p.make id made calls = some r) (hsound : Sound held p)
    (hcalls : descriptorEvents calls = acquires (made.bind held) ∨ made = none ∧
      ∃ fd, descriptorEvents calls = [.acquired fd, .released fd]) :
    Proper p.opened (descriptorEvents calls) ∧ Sound held r.1 := by
  obtain ⟨hid, hfresh, rfl⟩ := make_eq_some h
  unfold Sound openAfter
  dsimp only
  rw [ownerOf_update]
  rcases hcalls with hmade | ⟨rfl, fd, hclosed⟩
  · rw [hmade]
    refine hsound.create (ownerOf_none hid) fun fd hfd => hfresh fd (opened_of_acquired ?_)
    rw [hmade, hfd]
    exact List.mem_singleton_self _
  · have hnot : fd ∉ p.opened := by
      apply hfresh fd
      apply opened_of_acquired
      rw [hclosed]
      exact List.mem_cons_self ..
    have hout : outstanding p.opened (descriptorEvents calls) = p.opened := by
      rw [hclosed]
      exact List.erase_cons_head ..
    have hsame : update (ownerOf held p.objects) id (Option.bind none held) =
        ownerOf held p.objects := by
      have howner : ownerOf held p.objects id = none := ownerOf_none hid
      rw [Option.bind_none, ← howner, update_eq_self]
    rw [hout, hsame, hclosed]
    exact ⟨⟨hnot, List.mem_cons_self .., trivial⟩, hsound⟩

/-- Such a function closes only a descriptor of its own. -/
theorem make_closes {id : Nat} {made : Option σ} {r : Process σ × List SysCall}
    (h : p.make id made calls = some r) (hsound : Sound held p)
    (hcalls : descriptorEvents calls = acquires (made.bind held) ∨ made = none ∧
      ∃ fd, descriptorEvents calls = [.acquired fd, .released fd]) {fd : Int}
    (hfd : .close fd ∈ r.2) :
    (∀ i, ownerOf held p.objects i ≠ some fd) ∧ ∀ i, ownerOf held r.1.objects i ≠ some fd := by
  obtain ⟨hid, hfresh, rfl⟩ := make_eq_some h
  have hmem := released_of_close hfd
  rcases hcalls with hmade | ⟨rfl, fd', hevents⟩
  · rw [hmade] at hmem
    simp [acquires] at hmem
  · rw [hevents] at hmem
    simp at hmem
    subst hmem
    have hopened : .opened fd ∈ calls := by
      apply opened_of_acquired
      rw [hevents]
      exact List.mem_cons_self ..
    have hbefore : ∀ i, ownerOf held p.objects i ≠ some fd := fun i hi =>
      hfresh fd hopened ((hsound.mem_iff fd).mpr ⟨i, hi⟩)
    have howner : ownerOf held p.objects id = none := ownerOf_none hid
    refine ⟨hbefore, fun i hi => hbefore i ?_⟩
    rw [ownerOf_update, Option.bind_none, ← howner, update_eq_self] at hi
    exact hi

theorem operate_sound {M : Members σ SysCall} (hM : M.HandsOn held SysCall.onDescriptor) {op : Op}
    {r : Process σ × List SysCall} (h : p.operate M op = some r) (hsound : Sound held p) :
    (descriptorEvents r.2 = [] ∨ ∃ id, op.subject = some id ∧
        descriptorEvents r.2 = releases (ownerOf held p.objects id)) ∧
      Proper p.opened (descriptorEvents r.2) ∧ Sound held r.1 := by
  obtain ⟨hstep, hopened⟩ := operate_eq_some h
  unfold Sound
  rw [hopened]
  exact hM.step hstep hsound

/-- An operation closes the descriptor of the object that it destroys or assigns over. -/
theorem operate_closes {M : Members σ SysCall} (hM : M.HandsOn held SysCall.onDescriptor) {op : Op}
    {r : Process σ × List SysCall} (h : p.operate M op = some r) (hsound : Sound held p) {fd : Int}
    (hfd : .close fd ∈ r.2) :
    (∀ i, ownerOf held p.objects i = some fd → op.subject = some i) ∧
      ∀ i, ownerOf held r.1.objects i ≠ some fd := by
  obtain ⟨hcalls, -, hsound'⟩ := operate_sound hM h hsound
  have hmem := released_of_close hfd
  rcases hcalls with hnil | ⟨id, hsubject, hreleases⟩
  · rw [hnil] at hmem
    cases hmem
  · have howner : ownerOf held p.objects id = some fd := by
      rw [hreleases] at hmem
      simpa [releases] using hmem
    refine ⟨fun i hi => ?_, fun i hi => ?_⟩
    · rw [hsound.unique i id fd hi howner]
      exact hsubject
    · have hout := (hsound'.mem_iff fd).mpr ⟨i, hi⟩
      rw [(operate_eq_some h).2] at hout
      unfold openAfter at hout
      rw [hreleases, mem_outstanding_releases hsound.nodup] at hout
      exact hout.1 howner

end Steps

/-! ## Runs -/

section Runs

variable {α : Type} {step : Process σ → α → List SysCall → Process σ → Prop}
  {h : List (Runs.Event (Process σ) α (List SysCall))} {p : Process σ}

/-- The calls of a run. -/
def made (h : List (Runs.Event (Process σ) α (List SysCall))) : List SysCall :=
  h.flatMap (·.output)

theorem made_snoc (h : List (Runs.Event (Process σ) α (List SysCall)))
    (e : Runs.Event (Process σ) α (List SysCall)) : made (h ++ [e]) = made h ++ e.output := by
  unfold made
  rw [List.flatMap_append, List.flatMap_singleton]

theorem descriptorEvents_append (calls₁ calls₂ : List SysCall) :
    descriptorEvents (calls₁ ++ calls₂) = descriptorEvents calls₁ ++ descriptorEvents calls₂ :=
  List.filterMap_append

/-- The descriptors that are open at the end are those the calls leave open. -/
theorem opened_eq (hopened : ∀ p a c p', step p a c p' → p'.opened = openAfter p.opened c)
    (hrun : Runs.Run step start h p) : p.opened = openAfter [] (made h) := by
  refine hrun.invariant (fun h p => p.opened = openAfter [] (made h)) rfl ?_
  intro h p a c p' _ hstep hp
  rw [hopened p a c p' hstep, hp, made_snoc]
  unfold openAfter
  rw [descriptorEvents_append, outstanding_append]

/-- A run of steps that keep the descriptors has closed only what was open. -/
theorem proper_run {held : σ → Option Int}
    {Q : Runs.Event (Process σ) α (List SysCall) → Prop}
    (hopened : ∀ p a c p', step p a c p' → p'.opened = openAfter p.opened c)
    (hkeeps : ∀ e, Q e → step e.before e.input e.output e.after → Sound held e.before →
      Proper e.before.opened (descriptorEvents e.output) ∧ Sound held e.after)
    (hrun : Runs.Run step start h p) (hQ : ∀ e ∈ h, Q e) :
    Proper [] (descriptorEvents (made h)) ∧ Sound held p := by
  induction hrun with
  | nil => exact ⟨trivial, sound_start held⟩
  | @snoc h p a c p' hrun hstep ih =>
    obtain ⟨hproper, hsound⟩ := ih fun e he => hQ e (List.mem_append_left _ he)
    obtain ⟨hlast, hsound'⟩ := hkeeps ⟨p, a, c, p'⟩ (hQ _ (by simp)) hstep hsound
    rw [opened_eq hopened hrun] at hlast
    refine ⟨?_, hsound'⟩
    rw [made_snoc, descriptorEvents_append, proper_append]
    exact ⟨hproper, hlast⟩

/-- A run of some actions that ends with no object left. -/
theorem follow_run {f : Process σ → α → Option (Process σ × List SysCall)} {actions : List α}
    {calls : List SysCall}
    (hcalls : (Runs.follow f start actions).map (fun r => made r.1) = some calls)
    (hobjects : ∀ id, (Runs.follow f start actions).map (fun r => r.2.objects id) = some none) :
    ∃ h p, Runs.Run (fun p a c p' => f p a = some (p', c)) start h p ∧
      h.map (·.input) = actions ∧ made h = calls ∧ ∀ id, p.objects id = none := by
  obtain ⟨r, hr, hmade⟩ := Option.map_eq_some_iff.mp hcalls
  obtain ⟨hrun, hinputs⟩ := Runs.Run.nil.follow (fun _ _ _ _ h => h) hr
  rw [hr] at hobjects
  exact ⟨r.1, r.2, hrun, hinputs, hmade, fun id => Option.some.inj (hobjects id)⟩

end Runs

end Process

end NeighborDiscovery
