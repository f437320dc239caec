/-
The orders of the unordered maps.

An iteration traverses two unordered maps, and the library leaves open in which order.
The clock is read for one interface after the other, so that another order also gives an
interface another reading of the same handling.  Of two daemons whose maps are traversed
in different orders, with the same system calls and where no removal comes between the
readings of one handling, every iteration sends the same datagrams, writes the same lines
to the logger and keeps the same data.  Only the order of the interfaces in a reply shows.
-/
import NeighborDiscovery.Library.Lockstep
import NeighborDiscovery.Network.AnnouncementOrder
import NeighborDiscovery.Network.CliReply
import NeighborDiscovery.Network.ForeignAnnouncements

namespace NeighborDiscovery

open Lockstep

/-! ## Readings of the clock -/

/-- The time in which an iteration handles what it received. -/
structure Handling where
  first : Int
  last : Int

def Handling.Has (w : Handling) (now : Int) : Prop := w.first ≤ now ∧ now ≤ w.last

/-- A removal finds all that was updated in the handling young enough, or all of it too
old. -/
def Handling.Clear (w : Handling) (period removeNow : Int) : Prop :=
  removeNow - w.first ≤ period ∨ period < removeNow - w.last

theorem Handling.Clear.fresh {w : Handling} {period removeNow now now' : Int}
    (h : w.Clear period removeNow) (hnow : w.Has now) (hnow' : w.Has now') :
    decide (removeNow - now ≤ period) = decide (removeNow - now' ≤ period) := by
  obtain ⟨h₁, h₂⟩ := hnow
  obtain ⟨h₁', h₂'⟩ := hnow'
  rw [decide_eq_decide]
  rcases h with h | h <;> omega

/-! ## Tables with the same entries -/

section Related

variable {α β : Type} {R : β → β → Prop}

theorem rel_bind {f g : α → Option β} (h : ∀ a, Option.Rel R (f a) (g a)) (o : Option α) :
    Option.Rel R (o.bind f) (o.bind g) := by
  cases o with
  | none => exact .none
  | some a => exact h a

theorem rel_or {a b c d : Option β} (hab : Option.Rel R a b) (hcd : Option.Rel R c d) :
    Option.Rel R (a.or c) (b.or d) := by
  cases hab with
  | none => exact hcd
  | some hab => exact .some hab

theorem rel_filter {p : β → Bool} {a b : Option β} (h : Option.Rel R a b)
    (hp : ∀ x y, R x y → p x = p y) : Option.Rel R (a.filter p) (b.filter p) := by
  cases h with
  | none => exact .none
  | some hxy =>
    rw [Option.filter_some, Option.filter_some, hp _ _ hxy]
    split
    · exact .some hxy
    · exact .none

theorem rel_map {f : β → α} {a b : Option β} (h : Option.Rel R a b)
    (hf : ∀ x y, R x y → f x = f y) : a.map f = b.map f := by
  cases h with
  | none => rfl
  | some hxy => exact congrArg some (hf _ _ hxy)

end Related

/-- The same data, updated in one handling. -/
def SameEntry {TData : Type} (W : Set Handling) (e e' : TData × Int) : Prop :=
  e.1 = e'.1 ∧ ∃ w ∈ W, w.Has e.2 ∧ w.Has e'.2

/-- The tables hold the same data under the same keys, each updated in one handling. -/
def IndexedTimedSet.SameEntries {TIndex TData : Type} [DecidableEq TIndex] (W : Set Handling)
    (t t' : IndexedTimedSet TIndex TData) : Prop :=
  ∀ index, Option.Rel (SameEntry W) (t.lookup index) (t'.lookup index)

theorem IndexedTimedSet.SameEntries.perm_data {TIndex TData : Type} [DecidableEq TIndex]
    {W : Set Handling} {t t' : IndexedTimedSet TIndex TData} (h : t.SameEntries W t')
    (order order' : Traversal (TData × Int)) : (t.data order).Perm (t'.data order') := by
  have hvalues := KeyedMap.perm_map_values fun k => rel_map (h k) fun _ _ he => he.1
  exact ((order.perm _).map Prod.fst).trans (hvalues.trans ((order'.perm _).map Prod.fst).symm)

/-! ## Environments, states and outputs that differ in an order -/

/-- The same environment, its maps traversed in other orders and the readings of the clock
falling to other interfaces. -/
def Env.reordered (env : Env) (receivedOrder : Traversal NetInterface)
    (dataOrder : Traversal (NetInterface × Int)) (updateNow : Bytes → Int) : Env :=
  { env with receivedOrder := receivedOrder, dataOrder := dataOrder, updateNow := updateNow }

structure Reordered (W : Set Handling) (period : Int) (env env' : Env) : Prop where
  same : ∃ receivedOrder dataOrder updateNow,
    env' = env.reordered receivedOrder dataOrder updateNow
  handling : ∃ w ∈ W, ∀ mac, w.Has (env.updateNow mac) ∧ w.Has (env'.updateNow mac)
  clear : ∀ w ∈ W, w.Clear period env.removeNow

/-- The states are the same but for how the table keeps its entries. -/
structure SameState (W : Set Handling) (period : Int) (nnd nnd' : NetworkNeighborDiscoverer) :
    Prop where
  entries : nnd.neighbors.SameEntries W nnd'.neighbors
  others : nnd' = { nnd with neighbors := nnd'.neighbors }
  period_eq : seconds nnd.settings.neighborActivityPeriodS.toNat = period

/-- The replies list the same interfaces, and `send` came equally far. -/
structure SameReply (host : Host) (answer answer' : Reply) : Prop where
  client : answer.client = answer'.client
  lists : ∃ l l', l.Perm l' ∧ answer.clientSBuff = announcement host l ∧
    answer'.clientSBuff = announcement host l'
  handed : ∃ n, answer.handed = answer.clientSBuff.take n ∧
    answer'.handed = answer'.clientSBuff.take n

structure SameOutput (host : Host) (out out' : Output) : Prop where
  sentIPv6 : out.sentIPv6 = out'.sentIPv6
  sentIPv4 : out.sentIPv4 = out'.sentIPv4
  passes : out.passes = out'.passes
  reply : Option.Rel (SameReply host) out.reply out'.reply

def SameResult (host : Host) (W : Set Handling) (period : Int)
    (p q : NetworkNeighborDiscoverer × Output) : Prop :=
  SameState W period p.1 q.1 ∧ SameOutput host p.2 q.2

/-! ## The reply -/

theorem length_announcement_perm {host : Host} {l l' : List NetInterface} (h : l.Perm l') :
    (announcement host l).length = (announcement host l').length := by
  unfold announcement
  rw [serializeNetInterfaces_nil, serializeNetInterfaces_nil, netInterfacesBytes,
    netInterfacesBytes, length_vectorBytes, length_vectorBytes,
    (h.flatMap_right (NetInterface.bytes host.order)).length_eq]

theorem eq_nil_congr {α : Type} {l l' : List α} (h : l.length = l'.length) :
    l = [] ↔ l' = [] := by
  rw [← List.length_eq_zero_iff, h, List.length_eq_zero_iff]

/-- How far `send` comes depends on how much there is to send. -/
theorem UnixSocket.writeLeft_alike {left left' : Bytes} (h : left.length = left'.length)
    (results : List WriteResult) :
    Alike (fun p q => p.1 = q.1 ∧ ∃ n, p.2 = left.take n ∧ q.2 = left'.take n)
      (writeLeft results left) (writeLeft results left') := by
  induction results generalizing left left' with
  | nil =>
    unfold writeLeft
    simp only [eq_nil_congr h]
    split
    · exact .ok ⟨rfl, 0, rfl, rfl⟩
    · exact .error _
  | cons result results ih =>
    unfold writeLeft
    simp only [eq_nil_congr h]
    split
    · exact .ok ⟨rfl, 0, rfl, rfl⟩
    · cases result with
      | interrupted => exact ih h
      | failed => exact .ok ⟨rfl, 0, rfl, rfl⟩
      | wrote n =>
        cases n with
        | zero => exact .ok ⟨rfl, 0, rfl, rfl⟩
        | succ n =>
          have hdrop : (left.drop (n + 1)).length = (left'.drop (n + 1)).length := by
            rw [List.length_drop, List.length_drop, h]
          refine (ih hdrop).bind fun p q hpq => ?_
          obtain ⟨hret, m, hp, hq⟩ := hpq
          refine .ok ⟨hret, n + 1 + m, ?_, ?_⟩
          · rw [hp]
            exact List.take_add.symm
          · rw [hq]
            exact List.take_add.symm

theorem UnixSocket.send_alike (s : UnixSocket) {buff buff' : Bytes}
    (h : buff.length = buff'.length) (results : List WriteResult) :
    Alike (fun p q => p.1 = q.1 ∧ ∃ n, p.2 = buff.take n ∧ q.2 = buff'.take n)
      (s.send buff results) (s.send buff' results) := by
  unfold send
  split
  · exact .ok ⟨rfl, 0, rfl, rfl⟩
  · exact writeLeft_alike h results

section Iteration

variable {host : Host} {W : Set Handling} {period : Int} {env : Env}
  {receivedOrder : Traversal NetInterface} {dataOrder : Traversal (NetInterface × Int)}
  {updateNow : Bytes → Int} {nnd : NetworkNeighborDiscoverer}
  {t : IndexedTimedSet Bytes NetInterface}

theorem reply_steps (h : nnd.neighbors.SameEntries W t) (r : Reception) :
    Steps (Option.Rel (SameReply host)) (reply host env nnd r)
      (reply host (env.reordered receivedOrder dataOrder updateNow)
        { nnd with neighbors := t } r) := by
  unfold reply
  cases r.clientSocket with
  | none => exact .pure .none
  | some clientSocket =>
    dsimp only
    split
    · have hperm := h.perm_data env.dataOrder dataOrder
      have hlength := @length_announcement_perm host _ _ hperm
      refine Steps.bind (.lift (clientSocket.send_alike hlength env.writes)) fun p q hpq => ?_
      obtain ⟨ret, handed⟩ := p
      obtain ⟨ret', handed'⟩ := q
      obtain ⟨hret, n, hp, hq⟩ := hpq
      cases hret
      refine Steps.bind (.refl (fun _ => rfl) (logReply ret)) fun _ _ _ => .pure (.some ?_)
      exact ⟨rfl, ⟨_, _, hperm, rfl, rfl⟩, n, hp, hq⟩
    · exact .pure .none

/-! ## The table -/

theorem matchedIPv6_fault {nifs : List NetInterface} {received : NetInterface} {e : Fault}
    (h : matchedIPv6 host nifs received = .error e) : e = .outOfRange := by
  refine Fallible.filter_fault (P := (· = .outOfRange)) (fun rIPv6 _ e hany => ?_) h
  refine Fallible.any_fault (P := (· = .outOfRange)) (fun loc _ e hany => ?_) hany
  exact Fallible.any_fault (P := (· = .outOfRange)) (fun lIPv6 _ e hsame =>
    IPAddressManager.isSameSubnetIPv6_fault _ hsame) hany

theorem updateNeighbors_outOfRange {nifs : List NetInterface}
    {m : KeyedMap.Map Bytes NetInterface} {e : Fault}
    (h : updateNeighbors host env nnd nifs m = .error e) : e = .outOfRange := by
  unfold updateNeighbors at h
  rcases Fallible.bind_eq_error.mp h with hfold | ⟨t, -, h⟩
  · refine Fallible.foldlM_fault (P := (· = .outOfRange)) (fun t received e hone => ?_) hfold
    unfold handleReceived at hone
    rcases Fallible.bind_eq_error.mp hone with hmatched | ⟨matched, -, hone⟩
    · exact matchedIPv6_fault hmatched
    · split at hone
      · cases hone
      · cases hone
  · cases h

theorem updateNeighbors_returns_iff {nifs : List NetInterface}
    {m : KeyedMap.Map Bytes NetInterface} :
    (∃ t, updateNeighbors host env nnd nifs m = .ok t) ↔
      ∀ received ∈ KeyedMap.values m, ∃ l, matchedIPv6 host nifs received = .ok l := by
  have hperm := env.receivedOrder.perm (KeyedMap.values m)
  constructor
  · intro h received hreceived
    obtain ⟨t, ht⟩ := h
    obtain ⟨t₁, hfold, -⟩ := Fallible.bind_eq_ok.mp ht
    obtain ⟨t₂, t₃, hone⟩ := Fallible.foldlM_steps hfold received (hperm.mem_iff.mpr hreceived)
    exact handleReceived_returns_iff.mp ⟨t₃, hone⟩
  · intro h
    obtain ⟨t, ht⟩ := Fallible.foldlM_returns (fun received hreceived t =>
      handleReceived_returns_iff.mpr (h received (hperm.mem_iff.mp hreceived))) nnd.neighbors
    exact ⟨_, Fallible.bind_eq_ok.mpr ⟨t, ht, rfl⟩⟩

theorem written_same {env env' : Env} (henv : Reordered W period env env')
    (nifs : List NetInterface) (nif : NetInterface) :
    Option.Rel (SameEntry W) (written host env nifs nif) (written host env' nifs nif) := by
  obtain ⟨w, hw, hhas⟩ := henv.handling
  unfold written
  split
  · exact .some ⟨rfl, w, hw, hhas nif.mac⟩
  · exact .none

theorem updateNeighbors_alike (h : nnd.neighbors.SameEntries W t)
    (hperiod : seconds nnd.settings.neighborActivityPeriodS.toNat = period)
    (henv : Reordered W period env (env.reordered receivedOrder dataOrder updateNow))
    (nifs decoded : List NetInterface) :
    Alike (IndexedTimedSet.SameEntries W)
      (updateNeighbors host env nnd nifs (storeNifs ∅ decoded))
      (updateNeighbors host (env.reordered receivedOrder dataOrder updateNow)
        { nnd with neighbors := t } nifs (storeNifs ∅ decoded)) := by
  have hboth : (∃ t', updateNeighbors host env nnd nifs (storeNifs ∅ decoded) = .ok t') ↔
      ∃ t', updateNeighbors host (env.reordered receivedOrder dataOrder updateNow)
        { nnd with neighbors := t } nifs (storeNifs ∅ decoded) = .ok t' :=
    updateNeighbors_returns_iff.trans updateNeighbors_returns_iff.symm
  cases hone : updateNeighbors host env nnd nifs (storeNifs ∅ decoded) with
  | error e =>
    cases hother : updateNeighbors host (env.reordered receivedOrder dataOrder updateNow)
        { nnd with neighbors := t } nifs (storeNifs ∅ decoded) with
    | error e' =>
      rw [updateNeighbors_outOfRange hone, updateNeighbors_outOfRange hother]
      exact .error _
    | ok t₂ =>
      obtain ⟨t₁, ht₁⟩ := hboth.mpr ⟨t₂, hother⟩
      rw [hone] at ht₁
      cases ht₁
  | ok t₁ =>
    obtain ⟨t₂, hother⟩ := hboth.mp ⟨t₁, hone⟩
    rw [hother]
    refine .ok fun mac => ?_
    rw [lookup_updateNeighbors host hone, lookup_updateNeighbors host hother]
    -- A removal that is clear of the handling treats both entries alike.
    refine rel_filter (rel_or (rel_bind (written_same henv nifs) _) (h mac)) fun e e' he => ?_
    obtain ⟨-, w, hw, hnow, hnow'⟩ := he
    unfold isFresh
    rw [hperiod]
    exact (henv.clear w hw).fresh hnow hnow'

/-! ## An iteration -/

theorem receiveLoop_reordered (nifs : List NetInterface) (passes : List Pass) (r : Reception) :
    receiveLoop host (env.reordered receivedOrder dataOrder updateNow)
      { nnd with neighbors := t } nifs passes r = receiveLoop host env nnd nifs passes r := by
  induction passes generalizing r with
  | nil => rfl
  | cons pass passes ih =>
    unfold receiveLoop
    simp only [ih]
    rfl

/-- What the loop stores is what was decoded. -/
theorem receiveLoop_steps (nifs : List NetInterface) :
    Steps (fun r r' => r = r' ∧ ∃ decoded, r.receivedNifs = storeNifs ∅ decoded)
      (receiveLoop host env nnd nifs env.passes .start)
      (receiveLoop host (env.reordered receivedOrder dataOrder updateNow)
        { nnd with neighbors := t } nifs env.passes .start) := by
  intro logger
  rw [receiveLoop_reordered]
  cases hrun : receiveLoop host env nnd nifs env.passes .start logger with
  | error e => exact .error e
  | ok p =>
    obtain ⟨consumed, rest, -, -, hreceives⟩ := receiveLoop_ok host hrun
    exact .ok ⟨⟨rfl, _, hreceives.stored⟩, rfl⟩

theorem discover_steps (h : nnd.neighbors.SameEntries W t)
    (hperiod : seconds nnd.settings.neighborActivityPeriodS.toNat = period)
    (henv : Reordered W period env (env.reordered receivedOrder dataOrder updateNow))
    (nifs : List NetInterface) :
    Steps (SameResult host W period) (discover host env nnd nifs)
      (discover host (env.reordered receivedOrder dataOrder updateNow)
        { nnd with neighbors := t } nifs) := by
  unfold discover
  refine Steps.bind (R := Eq) (.refl (fun _ => rfl) (updateSockets host env nnd nifs))
    fun s _ hs => ?_
  subst hs
  dsimp only
  refine Steps.bind (receiveLoop_steps nifs) fun r _ hr => ?_
  obtain ⟨rfl, decoded, hstored⟩ := hr
  rw [hstored]
  refine Steps.bind (.lift (updateNeighbors_alike h hperiod henv nifs decoded))
    fun t₁ t₂ ht => ?_
  refine Steps.bind (reply_steps ht r) fun answer answer' hanswer => .pure ?_
  exact ⟨⟨ht, rfl, hperiod⟩, rfl, rfl, rfl, hanswer⟩

theorem SameResult.prevNifs {p q : NetworkNeighborDiscoverer × Output}
    (h : SameResult host W period p q) (nifs : List NetInterface) :
    SameResult host W period ({ p.1 with prevNifs := nifs }, p.2)
      ({ q.1 with prevNifs := nifs }, q.2) := by
  obtain ⟨⟨hentries, hstate, hperiod⟩, hout⟩ := h
  refine ⟨⟨hentries, ?_, hperiod⟩, hout⟩
  dsimp only
  rw [hstate]

theorem iterate_steps (h : nnd.neighbors.SameEntries W t)
    (hperiod : seconds nnd.settings.neighborActivityPeriodS.toNat = period)
    (henv : Reordered W period env (env.reordered receivedOrder dataOrder updateNow)) :
    Steps (SameResult host W period) (iterate host env nnd)
      (iterate host (env.reordered receivedOrder dataOrder updateNow)
        { nnd with neighbors := t }) := by
  unfold iterate
  refine Steps.bind (R := Eq) (.refl (fun _ => rfl) (readInterfaces env)) fun nifs _ hnifs => ?_
  subst hnifs
  dsimp only
  split
  · exact (discover_steps h hperiod henv nifs).bind fun p q hpq => .pure (hpq.prevNifs nifs)
  · have hsame : SameResult host W period (nnd, .none) ({ nnd with neighbors := t }, .none) :=
      ⟨⟨h, rfl, hperiod⟩, rfl, rfl, rfl, .none⟩
    exact .pure (hsame.prevNifs nifs)

end Iteration

/-- From states with the same entries, in environments with other orders, iterations end
alike. -/
theorem runIteration_alike {host : Host} {W : Set Handling} {period : Int} {env env' : Env}
    {nnd nnd' : NetworkNeighborDiscoverer} (hsame : SameState W period nnd nnd')
    (henv : Reordered W period env env') :
    Alike (SameResult host W period) (runIteration host env nnd)
      (runIteration host env' nnd') := by
  obtain ⟨receivedOrder, dataOrder, updateNow, rfl⟩ := henv.same
  obtain ⟨hentries, hnnd', hperiod⟩ := hsame
  rw [hnnd']
  refine (iterate_steps hentries hperiod henv nnd.logger).bind fun p q hpq => ?_
  obtain ⟨⟨⟨hafter, hstate, hperiod'⟩, hout⟩, hlogger⟩ := hpq
  refine .ok ⟨⟨hafter, ?_, hperiod'⟩, hout⟩
  dsimp only
  rw [hstate, hlogger]

/-! ## Runs -/

/-- Beside a run in any environments there is one in the same environments with other
orders, and after it an iteration ends, or faults, as after the first. -/
theorem traversal_orders_unseen {host : Host} {logger : Logger} {settings : DiscoverySettings}
    {localSettings : UnixDomainSettings} {calls : SetupCalls}
    {init s : NetworkNeighborDiscoverer} {h : List Iteration} {W : Set Handling}
    (hinit : construct logger settings localSettings calls = .ok init)
    (hrun : DaemonRun host init h s) {envs : List Env}
    (henvs : List.Forall₂ (Reordered W (seconds settings.neighborActivityPeriodS.toNat))
      (h.map Runs.Event.input) envs) :
    ∃ h' s', DaemonRun host init h' s' ∧ h'.map Runs.Event.input = envs ∧
      List.Forall₂ (fun e e' => SameOutput host e.output e'.output ∧
        SameState W (seconds settings.neighborActivityPeriodS.toNat) e.after e'.after) h h' ∧
      ∀ env env', Reordered W (seconds settings.neighborActivityPeriodS.toNat) env env' →
        Alike (SameResult host W (seconds settings.neighborActivityPeriodS.toNat))
          (runIteration host env s) (runIteration host env' s') := by
  have hinitial := construct_ok hinit
  have hstep : ∀ nnd nnd' env out after env',
      SameState W (seconds settings.neighborActivityPeriodS.toNat) nnd nnd' →
      Reordered W (seconds settings.neighborActivityPeriodS.toNat) env env' →
      Iterates host nnd env out after →
      ∃ out' after', Iterates host nnd' env' out' after' ∧ SameOutput host out out' ∧
        SameState W (seconds settings.neighborActivityPeriodS.toNat) after after' := by
    intro nnd nnd' env out after env' hsame henv hstep
    obtain ⟨q, hq, hafter, hout⟩ := (runIteration_alike hsame henv).of_ok hstep
    exact ⟨q.2, q.1, hq, hout, hafter⟩
  have hsame : SameState W (seconds settings.neighborActivityPeriodS.toNat) init init := by
    refine ⟨fun mac => ?_, rfl, by rw [hinitial.settings]⟩
    rw [hinitial.neighbors]
    exact .none
  obtain ⟨h', s', hrun', hmade, hall, hlast⟩ :=
    run_beside (SameState W (seconds settings.neighborActivityPeriodS.toNat)) (Reordered W _)
      (SameOutput host) hsame hstep hrun henvs
  exact ⟨h', s', hrun', hmade, hall, fun env env' henv => runIteration_alike hlast henv⟩

namespace Small

/-- The other orders, and the two readings exchanged. -/
def backwards (env : Env) : Env :=
  env.reordered ⟨List.reverse, List.reverse_perm⟩ ⟨List.reverse, List.reverse_perm⟩
    fun mac => if mac = text "dd" then 1 else 2

/-- Both interfaces are heard of in the pass of the client that asks. -/
def learnsBoth : Env :=
  { env [eth0] [⟨some ⟨announcement host [remote, other], text "fe80::2", both_fit⟩, none,
    some client, 1⟩] 3 with updateNow := fun mac => if mac = text "dd" then 2 else 1 }

theorem reordered_both : Reordered {⟨1, 2⟩} (seconds 30) learnsBoth (backwards learnsBoth) := by
  refine ⟨⟨_, _, _, rfl⟩, ⟨⟨1, 2⟩, rfl, fun mac => ?_⟩, ?_⟩
  · show Handling.Has _ (if mac = text "dd" then 2 else 1) ∧
      Handling.Has _ (if mac = text "dd" then 1 else 2)
    unfold Handling.Has
    split <;> decide
  · rintro w rfl
    exact Or.inl (by decide)

set_option maxRecDepth 10000 in
theorem learns_both : ∃ e answer, iterations host init [learnsBoth] = some [e] ∧
    e.input = learnsBoth ∧ e.output.reply = some answer ∧
    answer.clientSBuff = announcement host [remote, other] :=
  ⟨_, _, rfl, rfl, rfl, rfl⟩

end Small

theorem traversal_orders_unseen_small : ∃ e answer e' s',
    iterations Small.host Small.init [Small.learnsBoth] = some [e] ∧
      e.output.reply = some answer ∧
      answer.clientSBuff = announcement Small.host [Small.remote, Small.other] ∧
      DaemonRun Small.host Small.init [e'] s' ∧ e'.input = Small.backwards Small.learnsBoth ∧
      SameOutput Small.host e.output e'.output := by
  obtain ⟨e, answer, hmade, hinput, hreply, hbuff⟩ := Small.learns_both
  obtain ⟨s, hrun⟩ := Small.run hmade
  have henvs : List.Forall₂ (Reordered {⟨1, 2⟩}
      (seconds Small.settings.neighborActivityPeriodS.toNat)) ([e].map Runs.Event.input)
      [Small.backwards Small.learnsBoth] := by
    rw [List.map_singleton, hinput]
    exact .cons Small.reordered_both .nil
  obtain ⟨h', s', hrun', hmade', hsame, -⟩ :=
    traversal_orders_unseen Small.construct_init hrun henvs
  obtain ⟨e', rfl⟩ : ∃ e', h' = [e'] :=
    List.length_eq_one_iff.mp ((List.length_map _).symm.trans (congrArg List.length hmade'))
  have hpair := (List.forall₂_cons.mp hsame).1
  exact ⟨e, answer, e', s', hmade, hreply, hbuff, hrun', (List.cons.inj hmade').1, hpair.1⟩

end NeighborDiscovery
