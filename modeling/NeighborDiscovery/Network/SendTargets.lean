/-
What `send` does for each of its targets.

The loop stops at the first target whose call fails, so that the datagrams are
those of the targets before it.  IPv6 selects the interface of each target.  IPv4
selects INADDR_ANY for every one, which is the system's default interface.
-/
import Mathlib.Data.List.TakeWhile
import Mathlib.Data.List.Forall2
import NeighborDiscovery.Network.DaemonRun

namespace NeighborDiscovery

/-! ## Stopping at the first failure -/

section Stops

variable {α β : Type}

/-- Nothing that passes stands behind a failure exactly if stopping loses nothing. -/
theorem takeWhile_eq_filter_iff (p : α → Bool) (l : List α) :
    l.takeWhile p = l.filter p ↔ l.Pairwise fun a b => p b = true → p a = true := by
  induction l with
  | nil => exact iff_of_true rfl List.Pairwise.nil
  | cons a rest ih =>
    rw [List.pairwise_cons]
    by_cases ha : p a = true
    · rw [List.takeWhile_cons_of_pos ha, List.filter_cons_of_pos ha, ← ih]
      constructor
      · intro h
        exact ⟨fun _ _ _ => ha, (List.cons.inj h).2⟩
      · intro h
        rw [h.2]
    · rw [List.takeWhile_cons_of_neg ha, List.filter_cons_of_neg ha]
      constructor
      · intro h
        have hnone : ∀ b ∈ rest, ¬ p b = true := List.filter_eq_nil_iff.mp h.symm
        refine ⟨fun b hb hpb => absurd hpb (hnone b hb), ?_⟩
        apply List.pairwise_of_forall_mem_list
        intro b _ c hc hpc
        exact absurd hpc (hnone c hc)
      · intro h
        symm
        apply List.filter_eq_nil_iff.mpr
        intro b hb hpb
        exact ha (h.1 b hb hpb)

theorem takeWhile_sublist_filter (p : α → Bool) (l : List α) :
    List.Sublist (l.takeWhile p) (l.filter p) := by
  have hall : (l.takeWhile p).filter p = l.takeWhile p :=
    List.filter_eq_self.mpr fun a ha => List.mem_takeWhile_imp ha
  rw [← hall]
  exact (List.takeWhile_sublist p).filter p

theorem subperm_takeWhile_iff (p : α → Bool) (f : α → β) (l : List α) :
    List.Subperm ((l.filter p).map f) ((l.takeWhile p).map f) ↔
      l.takeWhile p = l.filter p := by
  constructor
  · intro h
    have hlen := h.length_le
    rw [List.length_map, List.length_map] at hlen
    exact (takeWhile_sublist_filter p l).eq_of_length_le hlen
  · intro h
    rw [h]

end Stops

namespace IPMulticastSender

variable {T : Family}

/-- A target's own calls succeed.  Without an index there is no `setsockopt`. -/
def succeeds (calls : Nat → SendCall) (p : Target T × Nat) : Bool :=
  (p.1.ifindex = 0 || (calls p.2).setsockopt) && (calls p.2).sendto

theorem succeeds_eq_true {calls : Nat → SendCall} {target : Target T} {i : Nat} :
    succeeds calls (target, i) = true ↔
      ¬ (target.ifindex ≠ 0 ∧ (calls i).setsockopt = false) ∧ ¬ (calls i).sendto = false := by
  unfold succeeds
  rw [Bool.and_eq_true, Bool.or_eq_true, decide_eq_true_iff, not_and, ne_eq,
    Bool.not_eq_false, Bool.not_eq_false]
  refine and_congr_left fun _ => ?_
  by_cases hindex : target.ifindex = 0
  · simp [hindex]
  · simp [hindex]

/-- The datagram is the target's, through the interface its family selects. -/
def SentFor (data : Bytes) (target : Target T) (sent : Sent T) : Prop :=
  sent.addr = target.addr ∧ sent.data = data ∧
    (target.ifindex ≠ 0 → sent.outgoing = selected T target.ifindex)

/-- The loop succeeds if every target does, and it sends to the targets before the
first that does not. -/
theorem sendTargets_stops (sockFd : Nat) (data : Bytes) (calls : Nat → SendCall)
    (targets : List (Target T)) (i : Nat) (outgoing : Option UInt32) :
    (sendTargets sockFd data calls targets i outgoing).1.isOk =
        (targets.zipIdx i).all (succeeds calls) ∧
      List.Forall₂ (fun p sent => SentFor data p.1 sent)
        ((targets.zipIdx i).takeWhile (succeeds calls))
        (sendTargets sockFd data calls targets i outgoing).2.2 := by
  induction targets generalizing i outgoing with
  | nil => exact ⟨rfl, .nil⟩
  | cons target rest ih =>
    rw [List.zipIdx_cons, List.all_cons]
    unfold sendTargets
    by_cases hset : target.ifindex ≠ 0 ∧ (calls i).setsockopt = false
    · have hfails : ¬ succeeds calls (target, i) = true := fun h =>
        (succeeds_eq_true.mp h).1 hset
      rw [if_pos hset, List.takeWhile_cons_of_neg hfails, Bool.eq_false_iff.mpr hfails]
      exact ⟨rfl, .nil⟩
    · rw [if_neg hset]
      dsimp only
      by_cases hsend : (calls i).sendto = false
      · have hfails : ¬ succeeds calls (target, i) = true := fun h =>
          (succeeds_eq_true.mp h).2 hsend
        rw [if_pos hsend, List.takeWhile_cons_of_neg hfails, Bool.eq_false_iff.mpr hfails]
        exact ⟨rfl, .nil⟩
      · have hone : succeeds calls (target, i) = true := succeeds_eq_true.mpr ⟨hset, hsend⟩
        rw [if_neg hsend, List.takeWhile_cons_of_pos hone, hone, Bool.true_and]
        obtain ⟨hret, hsent⟩ := ih (i + 1)
          (if target.ifindex ≠ 0 then selected T target.ifindex else outgoing)
        exact ⟨hret, .cons ⟨rfl, rfl, fun hindex => if_pos hindex⟩ hsent⟩

theorem send_isOk (s : IPMulticastSender T) (data : Bytes) (calls : Nat → SendCall) :
    (s.send data calls).1.isOk = s.targets.zipIdx.all (succeeds calls) :=
  (sendTargets_stops s.sockFd data calls s.targets 0 s.outgoing).1

theorem send_sent (s : IPMulticastSender T) (data : Bytes) (calls : Nat → SendCall) :
    List.Forall₂ (fun p sent => SentFor data p.1 sent)
      (s.targets.zipIdx.takeWhile (succeeds calls)) (s.send data calls).2.2 :=
  (sendTargets_stops s.sockFd data calls s.targets 0 s.outgoing).2

/-! ## The interface a datagram leaves through -/

/-- A datagram carries the data to the target and leaves through its interface. -/
def Leaves (defaultIf : UInt32) (data : Bytes) (target : Target T) (sent : Sent T) : Prop :=
  sent.addr = target.addr ∧ sent.data = data ∧
    (target.ifindex ≠ 0 → sent.outgoing.getD defaultIf = target.ifindex)

/-- A successful `send` has sent one datagram for each target, in order, and each
through the target's interface. -/
def LeavesThrough (defaultIf : UInt32) (s : IPMulticastSender T) (data : Bytes)
    (calls : Nat → SendCall) : Prop :=
  (s.send data calls).1.isOk = true →
    List.Forall₂ (Leaves defaultIf data) s.targets (s.send data calls).2.2

theorem send_all {s : IPMulticastSender T} {data : Bytes} {calls : Nat → SendCall}
    (hok : (s.send data calls).1.isOk = true) :
    List.Forall₂ (SentFor data) s.targets (s.send data calls).2.2 := by
  have hsent := send_sent s data calls
  rw [send_isOk, List.all_eq_true] at hok
  rw [List.takeWhile_eq_self_iff.mpr hok] at hsent
  have htargets : s.targets = s.targets.zipIdx.map Prod.fst := (List.zipIdx_map_fst 0 _).symm
  rw [htargets]
  exact List.forall₂_map_left_iff.mpr hsent

theorem selected_getD (defaultIf ifindex : UInt32) :
    (selected T ifindex).getD defaultIf = ifindex ↔ T = .inet6 ∨ ifindex = defaultIf := by
  cases T with
  | inet =>
    show defaultIf = ifindex ↔ _
    simp [eq_comm]
  | inet6 => simp [selected]

theorem leaves_iff {defaultIf : UInt32} {data : Bytes} {target : Target T} {sent : Sent T}
    (h : SentFor data target sent) :
    Leaves defaultIf data target sent ↔
      (target.ifindex ≠ 0 → T = .inet6 ∨ target.ifindex = defaultIf) := by
  obtain ⟨haddr, hdata, hselected⟩ := h
  unfold Leaves
  rw [and_iff_right haddr, and_iff_right hdata]
  refine forall_congr' fun hindex => ?_
  rw [hselected hindex, selected_getD]

theorem forall₂_leaves_iff {defaultIf : UInt32} {data : Bytes} {targets : List (Target T)}
    {sent : List (Sent T)} (h : List.Forall₂ (SentFor data) targets sent) :
    List.Forall₂ (Leaves defaultIf data) targets sent ↔
      ∀ target ∈ targets, target.ifindex ≠ 0 → T = .inet6 ∨ target.ifindex = defaultIf := by
  induction h with
  | nil => simp
  | cons hone _ ih => rw [List.forall₂_cons, List.forall_mem_cons, leaves_iff hone, ih]

theorem leavesThrough_iff (defaultIf : UInt32) (s : IPMulticastSender T) (data : Bytes)
    (calls : Nat → SendCall) :
    LeavesThrough defaultIf s data calls ↔
      T = .inet6 ∨ (∀ target ∈ s.targets, target.ifindex ≠ 0 → target.ifindex = defaultIf) ∨
        ∃ p ∈ s.targets.zipIdx, succeeds calls p = false := by
  unfold LeavesThrough
  by_cases hok : (s.send data calls).1.isOk = true
  · have hall : ¬ ∃ p ∈ s.targets.zipIdx, succeeds calls p = false := by
      intro hex
      obtain ⟨p, hp, hfails⟩ := hex
      rw [send_isOk, List.all_eq_true] at hok
      rw [hok p hp] at hfails
      cases hfails
    rw [forall₂_leaves_iff (send_all hok), or_iff_left hall]
    simp only [hok, forall_true_left]
    constructor
    · intro h
      by_cases hfamily : T = .inet6
      · exact Or.inl hfamily
      · exact Or.inr fun target htarget hindex =>
          (h target htarget hindex).resolve_left hfamily
    · intro h target htarget hindex
      exact h.imp_right fun hdefault => hdefault target htarget hindex
  · have hfails : ∃ p ∈ s.targets.zipIdx, succeeds calls p = false := by
      rw [send_isOk, Bool.not_eq_true, List.all_eq_false] at hok
      simpa using hok
    exact iff_of_true (fun h => absurd h hok) (Or.inr (Or.inr hfails))

/-! ## Failures -/

/-- Every target whose own calls succeed has been sent the data, and an error tells of
any that do not. -/
def ServesHealthy (s : IPMulticastSender T) (data : Bytes) (calls : Nat → SendCall) : Prop :=
  List.Subperm ((s.targets.zipIdx.filter (succeeds calls)).map fun p => (p.1.addr, data))
      ((s.send data calls).2.2.map fun sent => (sent.addr, sent.data)) ∧
    ((∃ p ∈ s.targets.zipIdx, succeeds calls p = false) →
      (s.send data calls).1.code = .Error)

theorem sent_addresses {data : Bytes} {l : List (Target T × Nat)} {sent : List (Sent T)}
    (h : List.Forall₂ (fun p sent => SentFor data p.1 sent) l sent) :
    sent.map (fun d => (d.addr, d.data)) = l.map fun p => (p.1.addr, data) := by
  induction h with
  | nil => rfl
  | cons hone _ ih => rw [List.map_cons, List.map_cons, ih, hone.1, hone.2.1]

theorem code_eq_error (ret : FunctionReturnVoid) : ret.code = .Error ↔ ret.isOk = false := by
  obtain ⟨code, msg⟩ := ret
  cases code
  · exact ⟨fun h => (by cases h), fun h => (by cases h)⟩
  · exact iff_of_true rfl rfl

theorem servesHealthy_iff (s : IPMulticastSender T) (data : Bytes) (calls : Nat → SendCall) :
    ServesHealthy s data calls ↔ s.targets.zipIdx.Pairwise fun p q =>
      succeeds calls q = true → succeeds calls p = true := by
  unfold ServesHealthy
  rw [sent_addresses (send_sent s data calls), subperm_takeWhile_iff, takeWhile_eq_filter_iff]
  refine and_iff_left fun hfails => ?_
  rw [code_eq_error, send_isOk, List.all_eq_false]
  simpa using hfails

end IPMulticastSender

namespace Small

open IPMulticastSender

/-- A sender for the interfaces 2 and 3. -/
def twoTargets (T : Family) : IPMulticastSender T :=
  ⟨3, [⟨⟨5320, group T⟩, 2⟩, ⟨⟨5320, group T⟩, 3⟩], none⟩

end Small

/-- On a host whose default is interface 2, the announcement for interface 3 leaves
through 2. -/
theorem leavesThrough_default :
    ((Small.twoTargets .inet).send [] fun _ => ⟨true, true⟩).1.isOk = true ∧
      ((Small.twoTargets .inet).send [] fun _ => ⟨true, true⟩).2.2.map
        (fun sent => sent.outgoing.getD 2) = [2, 2] ∧
      ¬ IPMulticastSender.LeavesThrough 2 (Small.twoTargets .inet) [] fun _ => ⟨true, true⟩ := by
  refine ⟨rfl, rfl, fun h => ?_⟩
  have hthrough := (List.forall₂_cons.mp (List.forall₂_cons.mp (h rfl)).2).1.2.2 (by decide)
  exact absurd hthrough (by decide)

/-- Interface 2 is refused, and nothing is sent on interface 3, whose calls would
succeed. -/
theorem servesHealthy_stopped :
    ((Small.twoTargets .inet6).send [] fun i => ⟨decide (i = 1), true⟩).2.2 = [] ∧
      (Small.twoTargets .inet6).targets.zipIdx.map
        (IPMulticastSender.succeeds fun i => ⟨decide (i = 1), true⟩) = [false, true] ∧
      ¬ IPMulticastSender.ServesHealthy (Small.twoTargets .inet6) []
        fun i => ⟨decide (i = 1), true⟩ := by
  refine ⟨rfl, rfl, fun h => ?_⟩
  have hlen := h.1.length_le
  exact absurd hlen (by decide)

end NeighborDiscovery
