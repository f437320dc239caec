/-
Readers of a buffer at an offset, and the formats they read.

A reader is given a whole buffer and an offset into it.  It faults, rejects the
bytes it finds, or returns a value together with the offset after it.  A format
is the other side of the same bytes: the encoding of every value, the values the
reader has room for, and the buffers on which the reader faults.

`Reader.Reads` ties the two together by two equivalences, one for acceptance and
one for faulting.  The first contains the round trip and its converse at once: a
value is returned exactly when its own encoding stands at the offset, so nothing
but an encoding is ever accepted.  Sequencing and counted repetition preserve the
relation, so a nested format is read correctly once its leaves are.
-/
import Mathlib.Data.List.Basic

namespace OffsetCodec

variable {ε β α γ δ : Type*}

/-! ## Words standing in a buffer -/

/-- The word `w` stands in the buffer `b` at offset `o`. -/
def HasAt (b : List β) (o : Nat) (w : List β) : Prop := w <+: b.drop o

theorem hasAt_nil (b : List β) (o : Nat) : HasAt b o [] := List.nil_prefix

theorem HasAt.le_length {b w : List β} {o : Nat} (h : HasAt b o w) (ho : o ≤ b.length) :
    o + w.length ≤ b.length := by
  have := h.length_le
  rw [List.length_drop] at this
  omega

theorem hasAt_append {b w z : List β} {o : Nat} :
    HasAt b o (w ++ z) ↔ HasAt b o w ∧ HasAt b (o + w.length) z := by
  constructor
  · intro h
    obtain ⟨t, ht⟩ := h
    rw [List.append_assoc] at ht
    refine ⟨⟨z ++ t, ht⟩, t, ?_⟩
    rw [← List.drop_drop, ← ht, List.drop_left]
  · intro h
    obtain ⟨⟨s, hs⟩, t, ht⟩ := h
    rw [← List.drop_drop, ← hs, List.drop_left] at ht
    exact ⟨t, by rw [List.append_assoc, ht, hs]⟩

theorem hasAt_iff_slice {b w : List β} {o : Nat} :
    HasAt b o w ↔ (b.drop o).take w.length = w :=
  List.prefix_iff_eq_take.trans eq_comm

theorem hasAt_middle (pre w post : List β) : HasAt (pre ++ w ++ post) pre.length w := by
  refine ⟨post, ?_⟩
  rw [List.append_assoc, List.drop_left]

/-- A word that stands in a buffer stands in every longer one. -/
theorem HasAt.extend {b w : List β} {o : Nat} (h : HasAt b o w) (t : List β) :
    HasAt (b ++ t) o w := by
  unfold HasAt
  rw [List.drop_append]
  exact h.trans (List.prefix_append _ _)

/-- A word that ends inside the first part of a buffer stands there. -/
theorem HasAt.restrict {b t w : List β} {o : Nat} (h : HasAt (b ++ t) o w)
    (hle : o + w.length ≤ b.length) : HasAt b o w := by
  have hslice := hasAt_iff_slice.mp h
  rw [List.drop_append_of_le_length (by omega), List.take_append_of_le_length] at hslice
  · exact hasAt_iff_slice.mpr hslice
  · rw [List.length_drop]
    omega

/-! ## Formats and readers -/

/-- What a reader is to read: the encoding of each value, the values it has
room for, and the offsets of a buffer at which it faults. -/
structure Format (β α : Type*) where
  enc : α → List β
  fits : α → Prop
  overflows : List β → Nat → Prop

/-- A reader faults, or returns a value or a rejection and the offset it
reached. -/
abbrev Reader (ε β α : Type*) := List β → Nat → Except ε (Option α × Nat)

/-- The reader `r` reads the format `F` in every buffer shorter than `limit`. -/
structure Reader.Reads (limit : Nat) (r : Reader ε β α) (F : Format β α) : Prop where
  accepts : ∀ {b : List β} {o : Nat}, b.length < limit → o ≤ b.length → ∀ (x : α) (o' : Nat),
    r b o = .ok (some x, o') ↔ HasAt b o (F.enc x) ∧ F.fits x ∧ o' = o + (F.enc x).length
  faults : ∀ {b : List β} {o : Nat}, b.length < limit → o ≤ b.length →
    ((∃ e, r b o = .error e) ↔ F.overflows b o)

namespace Reader.Reads

variable {limit : Nat} {r : Reader ε β α} {F : Format β α}

theorem unique (h : r.Reads limit F) {b : List β} {o : Nat} (hb : b.length < limit)
    (ho : o ≤ b.length) {x y : α} (hx : HasAt b o (F.enc x)) (fx : F.fits x)
    (hy : HasAt b o (F.enc y)) (fy : F.fits y) : x = y := by
  have ex := (h.accepts hb ho x _).mpr ⟨hx, fx, rfl⟩
  have ey := (h.accepts hb ho y _).mpr ⟨hy, fy, rfl⟩
  rw [ex] at ey
  simpa using (congrArg Prod.fst (Except.ok.inj ey))

theorem roundTrip (h : r.Reads limit F) {x : α} (fx : F.fits x) (pre post : List β)
    (hlen : (pre ++ F.enc x ++ post).length < limit) :
    r (pre ++ F.enc x ++ post) pre.length =
      .ok (some x, pre.length + (F.enc x).length) := by
  refine (h.accepts hlen ?_ x _).mpr ⟨hasAt_middle pre (F.enc x) post, fx, rfl⟩
  simp only [List.length_append]
  omega

/-- Only encodings are accepted, and the offset moves over exactly them. -/
theorem canonical (h : r.Reads limit F) {b : List β} {o o' : Nat} {x : α}
    (hb : b.length < limit) (ho : o ≤ b.length) (hr : r b o = .ok (some x, o')) :
    o ≤ o' ∧ o' ≤ b.length ∧ (b.drop o).take (o' - o) = F.enc x := by
  obtain ⟨hat, -, rfl⟩ := (h.accepts hb ho x o').mp hr
  refine ⟨Nat.le_add_right _ _, hat.le_length ho, ?_⟩
  rw [Nat.add_sub_cancel_left]
  exact hasAt_iff_slice.mp hat

end Reader.Reads

/-! ## Longer buffers -/

/-- More bytes at the end of a buffer do not undo an overflow. -/
def Format.Persistent (F : Format β α) : Prop :=
  ∀ (b : List β) (o : Nat) (t : List β), F.overflows b o → F.overflows (b ++ t) o

namespace Reader.Reads

variable {limit : Nat} {r : Reader ε β α} {F : Format β α}

theorem extend (h : r.Reads limit F) {b t : List β} {o o' : Nat} {x : α}
    (hlen : (b ++ t).length < limit) (ho : o ≤ b.length) (hr : r b o = .ok (some x, o')) :
    r (b ++ t) o = .ok (some x, o') := by
  rw [List.length_append] at hlen
  obtain ⟨hat, hfit, hend⟩ := (h.accepts (by omega) ho x o').mp hr
  refine (h.accepts ?_ ?_ x o').mpr ⟨hat.extend t, hfit, hend⟩
  · rw [List.length_append]
    exact hlen
  · rw [List.length_append]
    omega

theorem extend_faults (h : r.Reads limit F) (hF : F.Persistent) {b t : List β} {o : Nat}
    (hlen : (b ++ t).length < limit) (ho : o ≤ b.length) (hr : ∃ e, r b o = .error e) :
    ∃ e, r (b ++ t) o = .error e := by
  rw [List.length_append] at hlen
  have hover := (h.faults (by omega) ho).mp hr
  refine (h.faults ?_ ?_).mpr (hF b o t hover)
  · rw [List.length_append]
    exact hlen
  · rw [List.length_append]
    omega

/-- What is read from a longer buffer and ends behind the shorter one is rejected
there. -/
theorem cut (h : r.Reads limit F) (hF : F.Persistent) {b t : List β} {o o' : Nat} {x : α}
    (hlen : (b ++ t).length < limit) (ho : o ≤ b.length) (hr : r (b ++ t) o = .ok (some x, o'))
    (hcut : b.length < o') : ∃ o₁, r b o = .ok (none, o₁) := by
  cases hshort : r b o with
  | error e =>
    obtain ⟨e', he'⟩ := h.extend_faults hF hlen ho ⟨e, hshort⟩
    rw [hr] at he'
    cases he'
  | ok p =>
    obtain ⟨y, o₁⟩ := p
    cases y with
    | none => exact ⟨o₁, rfl⟩
    | some y =>
      have hsame := h.extend hlen ho hshort
      rw [hr] at hsame
      cases hsame
      have hb : b.length < limit := by
        rw [List.length_append] at hlen
        omega
      have hinside := (h.canonical hb ho hshort).2.1
      omega

end Reader.Reads

/-! ## Sequencing -/

def Reader.bind (r : Reader ε β α) (k : α → Reader ε β γ) : Reader ε β γ := fun b o =>
  match r b o with
  | .error e => .error e
  | .ok (none, o₁) => .ok (none, o₁)
  | .ok (some x, o₁) => k x b o₁

def Reader.pure (x : α) : Reader ε β α := fun _ o => .ok (some x, o)

def Reader.map (r : Reader ε β α) (f : α → γ) : Reader ε β γ :=
  r.bind fun x => Reader.pure (f x)

def Reader.seq (r : Reader ε β α) (s : Reader ε β γ) : Reader ε β (α × γ) :=
  r.bind fun x => Reader.map s fun y => (x, y)

theorem Reader.bind_bind (r : Reader ε β α) (k : α → Reader ε β γ) (l : γ → Reader ε β δ) :
    (r.bind k).bind l = r.bind fun x => (k x).bind l := by
  funext b o
  simp only [Reader.bind]
  cases r b o with
  | error e => rfl
  | ok p =>
    obtain ⟨x, o₁⟩ := p
    cases x <;> rfl

theorem Reader.map_bind (r : Reader ε β α) (k : α → Reader ε β γ) (f : γ → δ) :
    Reader.map (r.bind k) f = r.bind fun x => Reader.map (k x) f :=
  Reader.bind_bind r k fun y => Reader.pure (f y)

theorem Reader.map_map (r : Reader ε β α) (f : α → γ) (g : γ → δ) :
    Reader.map (Reader.map r f) g = Reader.map r fun x => g (f x) :=
  Reader.bind_bind r (fun x => Reader.pure (f x)) fun y => Reader.pure (g y)

theorem Reader.map_seq (r : Reader ε β α) (s : Reader ε β γ) (f : α × γ → δ) :
    Reader.map (r.seq s) f = r.bind fun x => Reader.map s fun y => f (x, y) := by
  rw [Reader.seq, Reader.map_bind]
  simp only [Reader.map_map]

theorem Reader.bind_eq_some {r : Reader ε β α} {k : α → Reader ε β γ} {b : List β} {o o' : Nat}
    {y : γ} : r.bind k b o = .ok (some y, o') ↔
      ∃ x o₁, r b o = .ok (some x, o₁) ∧ k x b o₁ = .ok (some y, o') := by
  simp only [Reader.bind]
  constructor
  · intro h
    split at h
    · cases h
    · cases h
    · exact ⟨_, _, by assumption, h⟩
  · intro h
    obtain ⟨x, o₁, h₁, h₂⟩ := h
    rw [h₁]
    exact h₂

theorem Reader.bind_faults {r : Reader ε β α} {k : α → Reader ε β γ} {b : List β} {o : Nat} :
    (∃ e, r.bind k b o = .error e) ↔ (∃ e, r b o = .error e) ∨
      ∃ x o₁, r b o = .ok (some x, o₁) ∧ ∃ e, k x b o₁ = .error e := by
  simp only [Reader.bind]
  refine ⟨fun ⟨e, h⟩ => ?_, fun h => ?_⟩
  · split at h
    · exact .inl ⟨_, by assumption⟩
    · cases h
    · exact .inr ⟨_, _, by assumption, e, h⟩
  · rcases h with ⟨e, h⟩ | ⟨x, o₁, h, e, he⟩
    · exact ⟨e, by rw [h]⟩
    · exact ⟨e, by rw [h]; exact he⟩

/-- Two formats one after the other.  The pair overflows where the first does,
or where the second does behind an encoding of the first. -/
def Format.seq (F : Format β α) (G : Format β γ) : Format β (α × γ) where
  enc p := F.enc p.1 ++ G.enc p.2
  fits p := F.fits p.1 ∧ G.fits p.2
  overflows b o := F.overflows b o ∨
    ∃ x, F.fits x ∧ HasAt b o (F.enc x) ∧ G.overflows b (o + (F.enc x).length)

theorem Format.Persistent.seq {F : Format β α} {G : Format β γ} (hF : F.Persistent)
    (hG : G.Persistent) : (F.seq G).Persistent := by
  intro b o t h
  rcases h with h | ⟨x, hfit, hat, h⟩
  · exact .inl (hF b o t h)
  · exact .inr ⟨x, hfit, hat.extend t, hG b _ t h⟩

theorem Reader.Reads.seq {limit : Nat} {r : Reader ε β α} {s : Reader ε β γ}
    {F : Format β α} {G : Format β γ} (hr : r.Reads limit F) (hs : s.Reads limit G) :
    (r.seq s).Reads limit (F.seq G) where
  accepts := by
    intro b o hb ho p o'
    obtain ⟨x, y⟩ := p
    simp only [Reader.seq, Reader.map, Reader.pure, Reader.bind_eq_some, Format.seq,
      hasAt_append, List.length_append]
    constructor
    · intro h
      obtain ⟨x₁, o₁, h₁, y₁, o₂, h₂, h₃⟩ := h
      cases h₃
      obtain ⟨a₁, f₁, rfl⟩ := (hr.accepts hb ho _ _).mp h₁
      obtain ⟨a₂, f₂, rfl⟩ := (hs.accepts hb (a₁.le_length ho) _ _).mp h₂
      exact ⟨⟨a₁, a₂⟩, ⟨f₁, f₂⟩, by omega⟩
    · intro h
      obtain ⟨⟨a₁, a₂⟩, ⟨f₁, f₂⟩, rfl⟩ := h
      have h₁ := (hr.accepts hb ho _ _).mpr ⟨a₁, f₁, rfl⟩
      have h₂ := (hs.accepts hb (a₁.le_length ho) _ _).mpr ⟨a₂, f₂, rfl⟩
      exact ⟨x, _, h₁, y, _, h₂, by rw [Nat.add_assoc]⟩
  faults := by
    intro b o hb ho
    simp only [Reader.seq, Reader.map, Reader.pure, Reader.bind_faults, Format.seq,
      hr.faults hb ho]
    refine or_congr Iff.rfl ⟨fun h => ?_, fun h => ?_⟩
    · obtain ⟨x, o₁, h₁, h₂⟩ := h
      obtain ⟨a₁, f₁, rfl⟩ := (hr.accepts hb ho _ _).mp h₁
      rcases h₂ with h₂ | ⟨y, o₂, -, e, he⟩
      · exact ⟨x, f₁, a₁, (hs.faults hb (a₁.le_length ho)).mp h₂⟩
      · cases he
    · obtain ⟨x, f₁, a₁, h₂⟩ := h
      have h₁ := (hr.accepts hb ho _ _).mpr ⟨a₁, f₁, rfl⟩
      exact ⟨x, _, h₁, .inl ((hs.faults hb (a₁.le_length ho)).mpr h₂)⟩

/-! ## Change of value -/

/-- A reader followed by `f` reads any format on the values of `f` with the same
encodings and overflows. -/
theorem Reader.Reads.map {limit : Nat} {r : Reader ε β α} {F : Format β α} {G : Format β γ}
    (h' : r.Reads limit F) {f : α → γ} (henc : ∀ x, G.enc (f x) = F.enc x)
    (hfits : ∀ y, G.fits y ↔ ∃ x, F.fits x ∧ f x = y)
    (hover : ∀ {b : List β} {o : Nat}, b.length < limit → o ≤ b.length →
      (F.overflows b o ↔ G.overflows b o)) :
    (r.map f).Reads limit G where
  accepts := by
    intro b o hb ho y o'
    simp only [Reader.map, Reader.pure, Reader.bind_eq_some, hfits]
    constructor
    · intro h
      obtain ⟨x, o₁, h₁, h₂⟩ := h
      cases h₂
      obtain ⟨ax, fx, rfl⟩ := (h'.accepts hb ho _ _).mp h₁
      exact ⟨by rw [henc]; exact ax, ⟨x, fx, rfl⟩, by rw [henc]⟩
    · intro h
      obtain ⟨ax, ⟨x, fx, rfl⟩, rfl⟩ := h
      rw [henc] at ax ⊢
      exact ⟨x, _, (h'.accepts hb ho _ _).mpr ⟨ax, fx, rfl⟩, rfl⟩
  faults := by
    intro b o hb ho
    rw [← hover hb ho, ← h'.faults hb ho]
    simp only [Reader.map, Reader.pure, Reader.bind_faults]
    refine ⟨fun h => ?_, fun h => .inl h⟩
    rcases h with h | ⟨x, o₁, -, e, he⟩
    · exact h
    · cases he

/-! ## Repetition -/

def Reader.times (r : Reader ε β α) : Nat → Reader ε β (List α)
  | 0 => fun _ o => .ok (some [], o)
  | n + 1 => Reader.map (r.seq (Reader.times r n)) fun p => p.1 :: p.2

/-- `n` encodings in a row.  The run overflows behind fewer than `n` of them. -/
def Format.times (F : Format β α) (n : Nat) : Format β (List α) where
  enc xs := xs.flatMap F.enc
  fits xs := xs.length = n ∧ ∀ x ∈ xs, F.fits x
  overflows b o := ∃ xs : List α, xs.length < n ∧ (∀ x ∈ xs, F.fits x) ∧
    HasAt b o (xs.flatMap F.enc) ∧ F.overflows b (o + (xs.flatMap F.enc).length)

theorem Format.times_succ_overflows (F : Format β α) (n : Nat) (b : List β) (o : Nat) :
    (F.seq (F.times n)).overflows b o ↔ (F.times (n + 1)).overflows b o := by
  simp only [Format.seq, Format.times]
  constructor
  · intro h
    rcases h with h | ⟨x, fx, ax, xs, hn, fxs, axs, h⟩
    · exact ⟨[], Nat.succ_pos n, by simp, hasAt_nil b o, h⟩
    · refine ⟨x :: xs, Nat.succ_lt_succ hn, ?_, hasAt_append.mpr ⟨ax, axs⟩, ?_⟩
      · intro y hy
        rcases List.mem_cons.mp hy with rfl | hy
        · exact fx
        · exact fxs y hy
      · rw [List.flatMap_cons, List.length_append, ← Nat.add_assoc]
        exact h
  · intro h
    obtain ⟨xs, hn, fxs, axs, h⟩ := h
    cases xs with
    | nil => exact .inl h
    | cons x xs =>
      rw [List.flatMap_cons, hasAt_append] at axs
      rw [List.flatMap_cons, List.length_append, ← Nat.add_assoc] at h
      exact .inr ⟨x, fxs x List.mem_cons_self, axs.1, xs, Nat.lt_of_succ_lt_succ hn,
        fun y hy => fxs y (List.mem_cons_of_mem x hy), axs.2, h⟩

theorem Format.Persistent.times {F : Format β α} (hF : F.Persistent) (n : Nat) :
    (F.times n).Persistent := by
  intro b o t h
  obtain ⟨xs, hn, hfit, hat, h⟩ := h
  exact ⟨xs, hn, hfit, hat.extend t, hF b _ t h⟩

theorem Reader.Reads.times {limit : Nat} {r : Reader ε β α} {F : Format β α}
    (h : r.Reads limit F) (n : Nat) : (Reader.times r n).Reads limit (F.times n) := by
  induction n with
  | zero =>
    constructor
    · intro b o hb ho xs o'
      simp only [Reader.times, Format.times, List.length_eq_zero_iff]
      constructor
      · intro h
        cases h
        exact ⟨hasAt_nil b o, ⟨rfl, by simp⟩, rfl⟩
      · intro h
        obtain ⟨-, ⟨rfl, -⟩, rfl⟩ := h
        rfl
    · intro b o hb ho
      simp [Reader.times, Format.times]
  | succ n ih =>
    refine (h.seq ih).map (fun p => rfl) (fun xs => ?_) (fun {b o} _ _ =>
      F.times_succ_overflows n b o)
    cases xs with
    | nil => simp [Format.times]
    | cons x xs =>
      simp only [Format.times, Format.seq, List.length_cons, Nat.add_right_cancel_iff,
        List.mem_cons, forall_eq_or_imp]
      refine ⟨fun ⟨hn, fx, fxs⟩ => ⟨(x, xs), ⟨fx, hn, fxs⟩, rfl⟩, fun h => ?_⟩
      obtain ⟨⟨y, ys⟩, ⟨fy, hn, fys⟩, e⟩ := h
      cases e
      exact ⟨hn, fy, fys⟩

/-! ## Counted runs -/

/-- Read a count, give up where its check does, then read that many values. -/
def Reader.counted (count : Reader ε β Nat) (check : Nat → Except ε Unit) (r : Reader ε β α) :
    Reader ε β (List α) :=
  count.bind fun n b o =>
    match check n with
    | .error e => .error e
    | .ok () => Reader.times r n b o

/-- A count and that many encodings.  Beside what its parts overflow on, a
counted run overflows on a count there is no room for. -/
def Format.counted (C : Format β Nat) (room : Nat → Prop) (F : Format β α) :
    Format β (List α) where
  enc xs := C.enc xs.length ++ xs.flatMap F.enc
  fits xs := C.fits xs.length ∧ room xs.length ∧ ∀ x ∈ xs, F.fits x
  overflows b o := C.overflows b o ∨ ∃ n, C.fits n ∧ HasAt b o (C.enc n) ∧
    (¬ room n ∨ (F.times n).overflows b (o + (C.enc n).length))

theorem Format.Persistent.counted {C : Format β Nat} {F : Format β α} (hC : C.Persistent)
    (hF : F.Persistent) (room : Nat → Prop) : (Format.counted C room F).Persistent := by
  intro b o t h
  rcases h with h | ⟨n, hfit, hat, hlong | h⟩
  · exact .inl (hC b o t h)
  · exact .inr ⟨n, hfit, hat.extend t, .inl hlong⟩
  · exact .inr ⟨n, hfit, hat.extend t, .inr (hF.times n b _ t h)⟩

theorem Reader.Reads.counted {limit : Nat} {c : Reader ε β Nat} {C : Format β Nat}
    {r : Reader ε β α} {F : Format β α} (hc : c.Reads limit C) (hr : r.Reads limit F)
    {check : Nat → Except ε Unit} {room : Nat → Prop} (hcheck : ∀ n, check n = .ok () ↔ room n) :
    (Reader.counted c check r).Reads limit (Format.counted C room F) where
  accepts := by
    intro b o hb ho xs o'
    simp only [Reader.counted, Reader.bind_eq_some, Format.counted, hasAt_append,
      List.length_append]
    constructor
    · intro h
      obtain ⟨n, o₁, h₁, h₂⟩ := h
      obtain ⟨an, fn, rfl⟩ := (hc.accepts hb ho _ _).mp h₁
      cases hn : check n with
      | error e =>
        rw [hn] at h₂
        cases h₂
      | ok _ =>
        rw [hn] at h₂
        obtain ⟨axs, ⟨rfl, fxs⟩, rfl⟩ := ((hr.times n).accepts hb (an.le_length ho) _ _).mp h₂
        exact ⟨⟨an, axs⟩, ⟨fn, (hcheck _).mp hn, fxs⟩, by simp only [Format.times]; omega⟩
    · intro h
      obtain ⟨⟨an, axs⟩, ⟨fn, hn, fxs⟩, rfl⟩ := h
      refine ⟨xs.length, _, (hc.accepts hb ho _ _).mpr ⟨an, fn, rfl⟩, ?_⟩
      rw [(hcheck _).mpr hn]
      exact ((hr.times _).accepts hb (an.le_length ho) _ _).mpr
        ⟨axs, ⟨rfl, fxs⟩, by simp only [Format.times]; omega⟩
  faults := by
    intro b o hb ho
    simp only [Reader.counted, Reader.bind_faults, Format.counted, hc.faults hb ho]
    refine or_congr Iff.rfl ⟨fun h => ?_, fun h => ?_⟩
    · obtain ⟨n, o₁, h₁, e₁, h₂⟩ := h
      obtain ⟨an, fn, rfl⟩ := (hc.accepts hb ho _ _).mp h₁
      refine ⟨n, fn, an, ?_⟩
      by_cases hn : room n
      · rw [(hcheck n).mpr hn] at h₂
        exact .inr (((hr.times n).faults hb (an.le_length ho)).mp ⟨e₁, h₂⟩)
      · exact .inl hn
    · obtain ⟨n, fn, an, h⟩ := h
      refine ⟨n, _, (hc.accepts hb ho _ _).mpr ⟨an, fn, rfl⟩, ?_⟩
      cases hn : check n with
      | error e => exact ⟨e, rfl⟩
      | ok _ =>
        have hroom : ¬ ¬ room n := not_not_intro ((hcheck n).mp hn)
        exact ((hr.times n).faults hb (an.le_length ho)).mpr (h.resolve_left hroom)

end OffsetCodec
