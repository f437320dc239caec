/-
`Process::daemonize` and the descriptors of the service.

`main` makes the discoverer first, so its sockets are open when the standard descriptors
are redirected.  Where these are open from the start no socket is one of them, and the
sockets stay what they are however `daemonize` returns, which `main` does not look at.
-/
import NeighborDiscovery.Library.SlotTable
import NeighborDiscovery.Network.DescriptorUse
import NeighborDiscovery.Processes.CppNeighborDiscovery

namespace NeighborDiscovery.Processes

open Leases SlotTable

/-- What the system calls of `daemonize` come to: what `open` opens at the path of the
log and at `/dev/null`, and whether `dup2` succeeds onto a descriptor. -/
structure DaemonizeCalls (File : Type) where
  daemon : Bool
  log : Option File
  null : Option File
  dup2 : Nat → Bool

namespace Process

variable {File : Type}

/-- The calls of `dup2` onto some descriptors, until one fails. -/
def redirect (dup2 : Nat → Bool) (fd : Nat) : List Nat → Table File → Bool × Table File
  | [], t => (true, t)
  | n :: ns, t => if dup2 n then redirect dup2 fd ns (copyInto fd t n) else (false, t)

/-- `Process::daemonize`, over the descriptors of the process.  `daemon(0, 1)` leaves
them as they are. -/
def daemonize (process : Process) (calls : DaemonizeCalls File) (t : Table File) :
    Bool × Table File :=
  if !calls.daemon then (false, t)
  else if process.logPath.isEmpty then (true, t)
  else
    match calls.log.or calls.null with
    | none => (false, t)
    | some file =>
      let fd := lowest t
      let (redirected, t) := redirect calls.dup2 fd [0, 1, 2] (put t fd (some file))
      if redirected then (true, if fd > 2 then put t fd none else t) else (false, t)

/-- Some of the descriptors are redirected, and all of them if no call fails. -/
theorem redirect_eq (dup2 : Nat → Bool) (fd : Nat) (ns : List Nat) (t : Table File) :
    ∃ done, done <+: ns ∧ (redirect dup2 fd ns t).2 = done.foldl (copyInto fd) t ∧
      ((redirect dup2 fd ns t).1 = true → done = ns) := by
  induction ns generalizing t with
  | nil => exact ⟨[], List.prefix_rfl, rfl, fun _ => rfl⟩
  | cons n ns ih =>
    unfold redirect
    split
    · obtain ⟨done, hprefix, htable, hall⟩ := ih (copyInto fd t n)
      exact ⟨n :: done, List.cons_prefix_cons.mpr ⟨rfl, hprefix⟩, htable,
        fun h => congrArg (n :: ·) (hall h)⟩
    · exact ⟨[], List.nil_prefix, rfl, fun h => by cases h⟩

section Daemonize

variable {process : Process} {calls : DaemonizeCalls File} {t t' : Table File} {done : Bool}

/-- Over the standard descriptors, what was open is what it was. -/
theorem daemonize_others (h : process.daemonize calls t = (done, t')) {n : Nat} (hn : 2 < n)
    (hopen : (at? t n).isSome = true) : at? t' n = at? t n := by
  unfold daemonize at h
  split at h
  · cases h
    rfl
  · split at h
    · cases h
      rfl
    · split at h
      · cases h
        rfl
      · rename_i file _
        have hfd : n ≠ lowest t := by
          intro heq
          rw [heq, at?_lowest] at hopen
          cases hopen
        obtain ⟨copied, hprefix, htable, -⟩ :=
          redirect_eq calls.dup2 (lowest t) [0, 1, 2] (put t (lowest t) (some file))
        have hcopied : n ∉ copied := by
          intro hmem
          have := hprefix.subset hmem
          simp at this
          omega
        have hredirected : at? (redirect calls.dup2 (lowest t) [0, 1, 2]
            (put t (lowest t) (some file))).2 n = at? t n := by
          rw [htable, at?_copies, if_neg hcopied, at?_put, if_neg hfd]
        dsimp only at h
        split at h
        · cases h
          split
          · rw [at?_put, if_neg hfd]
            exact hredirected
          · exact hredirected
        · cases h
          exact hredirected

/-- After a redirection the standard descriptors refer to one file, and every other to
what it did. -/
theorem daemonize_redirects (h : process.daemonize calls t = (true, t'))
    (hlog : process.logPath ≠ []) :
    ∃ file, calls.log.or calls.null = some file ∧
      ∀ n, at? t' n = if n ≤ 2 then some file else at? t n := by
  unfold daemonize at h
  split at h
  · cases h
  · rw [if_neg (by simpa using hlog)] at h
    split at h
    · cases h
    · rename_i file hfile
      refine ⟨file, hfile, fun n => ?_⟩
      obtain ⟨copied, -, htable, hall⟩ :=
        redirect_eq calls.dup2 (lowest t) [0, 1, 2] (put t (lowest t) (some file))
      dsimp only at h
      split at h
      · rename_i hredirected
        rw [hall hredirected] at htable
        have hat : ∀ k, at? (redirect calls.dup2 (lowest t) [0, 1, 2]
            (put t (lowest t) (some file))).2 k =
              if k ≤ 2 ∨ k = lowest t then some file else at? t k := by
          intro k
          have hmem : k ∈ [0, 1, 2] ↔ k ≤ 2 := by
            simp
            omega
          rw [htable, at?_copies, at?_put, at?_put, if_pos rfl]
          simp only [hmem]
          by_cases hk : k ≤ 2 <;> simp [hk]
        cases h
        split
        · rename_i hfd
          rw [at?_put]
          by_cases hn : n = lowest t
          · rw [if_pos hn, if_neg (by omega), hn, at?_lowest]
          · rw [if_neg hn, hat]
            simp [hn]
        · rename_i hfd
          rw [hat]
          have hiff : n ≤ 2 ∨ n = lowest t ↔ n ≤ 2 := by omega
          simp only [hiff]
      · cases h

end Daemonize

end Process

/-! ## The sockets of the service -/

section Service

variable {process : Process} {File : Type} {redirection : DaemonizeCalls File}
  {t t' : Table File} {done : Bool} {leftover : Bytes → Bytes} {logger : Logger}
  {settings : DiscoverySettings} {localSettings : UnixDomainSettings} {calls : SetupCalls}
  {init : NetworkNeighborDiscoverer} {opened : List Int}

theorem descriptors_nonneg (nnd : NetworkNeighborDiscoverer) :
    ∀ fd ∈ nnd.descriptors, 0 ≤ fd := by
  intro fd hfd
  unfold NetworkNeighborDiscoverer.descriptors at hfd
  simp only [List.mem_append, Option.mem_toList, Option.map_eq_some_iff] at hfd
  rcases hfd with hserver | (⟨r, -, rfl⟩ | ⟨s, -, rfl⟩) | ⟨r, -, rfl⟩ | ⟨s, -, rfl⟩
  · obtain ⟨server, -, hserver⟩ := Option.bind_eq_some_iff.mp hserver
    unfold UnixSocket.descriptor at hserver
    split at hserver
    · cases hserver
      assumption
    · cases hserver
  all_goals exact Int.natCast_nonneg _

/-- What is open above the standard descriptors stays what it is, and so does every socket
where these are open from the start.  Where one is not, a socket may have it, and loses it. -/
theorem service_descriptors
    (hinit : construct logger settings localSettings calls = .ok init) (hopened : opened.Nodup)
    (hfresh : Fresh opened
      (accesses ((constructCalls leftover settings localSettings calls).map .sys)))
    (hopen : ∀ n : Nat, (at? t n).isSome = true ↔ (n : Int) ∈ held opened
      (accesses ((constructCalls leftover settings localSettings calls).map .sys)))
    (hdaemonize : process.daemonize redirection t = (done, t')) :
    ((∀ fd ∈ [0, 1, 2], fd ∈ opened) → ∀ fd ∈ init.descriptors, 2 < fd) ∧
      (∀ n : Nat, (n : Int) ∈ init.descriptors → (at? t n).isSome = true) ∧
      (∀ n : Nat, 2 < n → (at? t n).isSome = true → at? t' n = at? t n) ∧
      (done = true → process.logPath ≠ [] → ∃ file,
        redirection.log.or redirection.null = some file ∧ (∀ n ≤ 2, at? t' n = some file) ∧
        ∀ n : Nat, (at? t' n).isSome = true ↔ n ≤ 2 ∨ (n : Int) ∈ init.descriptors ++ opened) := by
  obtain ⟨hnodup, hperm⟩ := construct_leaves leftover hinit opened hopened hfresh
  refine ⟨fun hstandard fd hfd => ?_,
    fun n hn => (hopen n).mpr (hperm.mem_iff.mpr (List.mem_append_left _ hn)),
    fun n hover hsome => Process.daemonize_others hdaemonize hover hsome, fun hdone hlog => ?_⟩
  · have hdisjoint := List.disjoint_of_nodup_append (hperm.nodup_iff.mp hnodup)
    have hnonneg := descriptors_nonneg init fd hfd
    have hnot : fd ∉ ([0, 1, 2] : List Int) := fun hmem => hdisjoint hfd (hstandard fd hmem)
    simp only [List.mem_cons, List.not_mem_nil, or_false, not_or] at hnot
    omega
  · subst hdone
    obtain ⟨file, hfile, hat⟩ := Process.daemonize_redirects hdaemonize hlog
    refine ⟨file, hfile, fun n hn => (hat n).trans (if_pos hn), fun n => ?_⟩
    rw [hat, ← hperm.mem_iff, ← hopen]
    by_cases hn : n ≤ 2 <;> simp [hn]

end Service

/-! ## A small start -/

namespace Small

/-- The terminal on the standard descriptors, and five sockets under the next. -/
def afterStart : Table Nat :=
  [some 100, some 100, some 100, some 103, some 104, some 105, some 106, some 107]

def redirection : DaemonizeCalls Nat := ⟨true, some 200, some 201, fun _ => true⟩

theorem calls_accesses : accesses
    ((constructCalls id Small.settings Small.localSettings Small.calls).map .sys) =
      [.event (.acquired 3), .event (.acquired 4), .event (.acquired 5), .event (.acquired 6),
        .event (.acquired 7)] := rfl

theorem afterStart_open (n : Nat) :
    (at? afterStart n).isSome = true ↔ (n : Int) ∈ held [0, 1, 2] (accesses
      ((constructCalls id Small.settings Small.localSettings Small.calls).map .sys)) := by
  rw [calls_accesses, show held [0, 1, 2] _ = ([7, 6, 5, 4, 3, 0, 1, 2] : List Int) from rfl]
  by_cases hn : n < 8
  · revert hn n
    decide
  · have hnone : at? afterStart n = none := by
      unfold at?
      rw [List.getElem?_eq_none (by simp [afterStart]; omega)]
      rfl
    rw [hnone]
    simp
    omega

end Small

/-- Without a standard input the first socket is descriptor 0, and then it is the log. -/
example : at? (service.daemonize Small.redirection
    [some 103, some 100, some 100, some 104]).2 0 = some 200 := rfl

theorem service_descriptors_small : ∃ t',
    service.daemonize Small.redirection Small.afterStart = (true, t') ∧
      (∀ fd ∈ Small.init.descriptors, 2 < fd) ∧ at? t' 7 = some 107 ∧ at? t' 1 = some 200 := by
  have hfresh : Fresh [0, 1, 2] (accesses
      ((constructCalls id Small.settings Small.localSettings Small.calls).map .sys)) := by
    rw [Small.calls_accesses]
    decide
  obtain ⟨hover, hopen, hkept, hredirected⟩ := service_descriptors Small.construct_init
    (by decide) hfresh Small.afterStart_open
    (rfl : service.daemonize Small.redirection Small.afterStart = (true, _))
  obtain ⟨file, hfile, hstandard, -⟩ := hredirected rfl (by decide)
  cases hfile
  exact ⟨_, rfl, hover (by decide), hkept 7 (by decide) (hopen 7 (by decide)), hstandard 1 (by decide)⟩

end NeighborDiscovery.Processes
