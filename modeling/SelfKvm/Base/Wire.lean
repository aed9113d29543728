/-
  Readers over a token list, and exactly what they accept.

  A wire format is written twice: by an encoder, and by a reader that takes tokens off the front
  of a buffer and may fail.  The two agree when the reader returns `a` and the rest `t` on a buffer
  `s` EXACTLY when `s` is the encoding of `a` followed by `t` (and `a` is one of the values the
  reader admits).  That is `Reads p enc ok`; both directions are in the one `Iff`, so "what is
  accepted is well formed" and "what is well formed is accepted" are proved together, and neither
  needs an induction of its own at the level of a whole message: `Reads.bind_eq_ok` takes a
  reader apart field by field.

  The second half is the big-endian number format: `beBytes k n` is the `k`-byte encoding of `n`,
  `beNat` reads it back, and each is the other's inverse on the right domain.
-/
import Mathlib.Data.List.Induction
import Mathlib.Tactic.Ring

namespace SelfKvm.Wire

/-! ## Readers -/

/-- A reader over tokens `β`: consumes a prefix of the buffer, or fails with an `ε`. -/
abbrev Reader (β ε α : Type) : Type := StateT (List β) (Except ε) α

variable {β ε α γ : Type}

/-- `Reads p enc ok` — the reader `p` returns `a` exactly on the buffers that start with `enc a`,
    for the admitted values `a`, and hands back what follows untouched. -/
def Reads (p : Reader β ε α) (enc : α → List β) (ok : α → Prop) : Prop :=
  ∀ s a t, p.run s = .ok (a, t) ↔ ok a ∧ s = enc a ++ t

theorem pure_eq_ok {a b : α} {s t : List β} :
    (pure a : Reader β ε α).run s = .ok (b, t) ↔ b = a ∧ s = t := by
  show (Except.ok (a, s) : Except ε (α × List β)) = .ok (b, t) ↔ _
  constructor
  · intro h
    injection h with h
    injection h with h1 h2
    exact ⟨h1.symm, h2⟩
  · rintro ⟨rfl, rfl⟩
    rfl

theorem throw_ne_ok {e : ε} {a : α} {s t : List β} :
    (throw e : Reader β ε α).run s ≠ .ok (a, t) := by
  intro h
  cases h

/-- A sequence of two readers succeeds exactly when both do, the second on what the first left. -/
theorem bind_eq_ok {p : Reader β ε α} {q : α → Reader β ε γ} {s t : List β} {c : γ} :
    (p >>= q).run s = .ok (c, t) ↔ ∃ a u, p.run s = .ok (a, u) ∧ (q a).run u = .ok (c, t) := by
  rw [StateT.run_bind]
  cases hp : p.run s with
  | error e =>
    constructor
    · intro h
      cases h
    · rintro ⟨a, u, h, _⟩
      cases h
  | ok r =>
    obtain ⟨a, u⟩ := r
    constructor
    · intro h
      exact ⟨a, u, rfl, h⟩
    · rintro ⟨a', u', h, hq⟩
      injection h with h
      injection h with h1 h2
      subst h1
      subst h2
      exact hq

/-- The field rule: a known reader in front peels its encoding off the buffer. -/
theorem Reads.bind_eq_ok {p : Reader β ε α} {enc : α → List β} {ok : α → Prop}
    (h : Reads p enc ok) {q : α → Reader β ε γ} {s t : List β} {c : γ} :
    (p >>= q).run s = .ok (c, t) ↔
      ∃ a, ok a ∧ ∃ u, s = enc a ++ u ∧ (q a).run u = .ok (c, t) := by
  rw [Wire.bind_eq_ok]
  constructor
  · rintro ⟨a, u, hp, hq⟩
    obtain ⟨hok, hs⟩ := (h s a u).mp hp
    exact ⟨a, hok, u, hs, hq⟩
  · rintro ⟨a, hok, u, hs, hq⟩
    exact ⟨a, u, (h s a u).mpr ⟨hok, hs⟩, hq⟩

/-- A reader whose result is only renamed: `f` and `g` are inverse to each other. -/
theorem Reads.map {p : Reader β ε α} {enc : α → List β} {ok : α → Prop} (h : Reads p enc ok)
    {f : α → γ} {g : γ → α} (hfg : ∀ c, f (g c) = c) (hgf : ∀ a, g (f a) = a) :
    Reads (do let a ← p; pure (f a)) (fun c => enc (g c)) (fun c => ok (g c)) := by
  intro s c t
  rw [h.bind_eq_ok]
  constructor
  · rintro ⟨a, hok, u, hs, hq⟩
    obtain ⟨rfl, rfl⟩ := pure_eq_ok.mp hq
    show ok (g (f a)) ∧ s = enc (g (f a)) ++ u
    rw [hgf]
    exact ⟨hok, hs⟩
  · rintro ⟨hok, hs⟩
    exact ⟨g c, hok, t, hs, pure_eq_ok.mpr ⟨(hfg c).symm, rfl⟩⟩

/-! ## Counted loops -/

/-- Run `p` exactly `n` times and collect the results in order. -/
def times (p : Reader β ε α) : Nat → Reader β ε (List α)
  | 0 => pure []
  | n + 1 => do
    let a ← p
    let as ← times p n
    pure (a :: as)

/-- A counted loop reads exactly the lists of that length, element after element. -/
theorem Reads.times {p : Reader β ε α} {enc : α → List β} (h : Reads p enc (fun _ => True)) :
    ∀ n, Reads (times p n) (fun as => as.flatMap enc) (fun as => as.length = n) := by
  intro n
  induction n with
  | zero =>
    intro s as t
    rw [Wire.times, pure_eq_ok]
    constructor
    · rintro ⟨rfl, rfl⟩
      exact ⟨rfl, rfl⟩
    · rintro ⟨hlen, hs⟩
      obtain rfl := List.eq_nil_of_length_eq_zero hlen
      exact ⟨rfl, hs⟩
  | succ n ih =>
    intro s as t
    rw [Wire.times, h.bind_eq_ok]
    constructor
    · rintro ⟨a, -, u, hs, hq⟩
      obtain ⟨as', hlen, v, hu, hr⟩ := ih.bind_eq_ok.mp hq
      obtain ⟨rfl, rfl⟩ := pure_eq_ok.mp hr
      refine ⟨congrArg (· + 1) hlen, ?_⟩
      show s = (a :: as').flatMap enc ++ v
      rw [hs, hu, List.flatMap_cons, List.append_assoc]
    · rintro ⟨hlen, hs⟩
      cases as with
      | nil => cases hlen
      | cons a as' =>
        have hs' : s = (a :: as').flatMap enc ++ t := hs
        rw [List.flatMap_cons, List.append_assoc] at hs'
        refine ⟨a, trivial, as'.flatMap enc ++ t, hs', ?_⟩
        exact ih.bind_eq_ok.mpr
          ⟨as', Nat.succ.inj hlen, t, rfl, pure_eq_ok.mpr ⟨rfl, rfl⟩⟩

/-! ## Big-endian numbers -/

/-- The `k` low bytes of `n`, most significant first. -/
def beBytes : Nat → Nat → List UInt8
  | 0, _ => []
  | k + 1, n => beBytes k (n / 256) ++ [UInt8.ofNat n]

/-- The number a byte string spells, most significant byte first. -/
def beNat (bs : List UInt8) : Nat := bs.foldl (fun acc b => acc * 256 + b.toNat) 0

@[simp] theorem beBytes_length (k n : Nat) : (beBytes k n).length = k := by
  induction k generalizing n with
  | zero => rfl
  | succ k ih => rw [beBytes, List.length_append, ih, List.length_singleton]

theorem beNat_concat (bs : List UInt8) (b : UInt8) :
    beNat (bs ++ [b]) = beNat bs * 256 + b.toNat := by
  rw [beNat, List.foldl_append]
  rfl

theorem beNat_lt (bs : List UInt8) : beNat bs < 256 ^ bs.length := by
  induction bs using List.reverseRecOn with
  | nil => exact Nat.one_pos
  | append_singleton bs b ih =>
    have hb : b.toNat < 256 := b.toNat_lt
    rw [beNat_concat, List.length_append, List.length_singleton, Nat.pow_succ]
    omega

/-- Reading back what was written gives the number, cut to the width of the field. -/
theorem beNat_beBytes (k n : Nat) : beNat (beBytes k n) = n % 256 ^ k := by
  induction k generalizing n with
  | zero => rw [Nat.pow_zero, Nat.mod_one]; rfl
  | succ k ih =>
    rw [beBytes, beNat_concat, ih, Nat.pow_succ, Nat.mul_comm (256 ^ k), Nat.mod_mul]
    have hb : (UInt8.ofNat n).toNat = n % 256 := UInt8.toNat_ofNat'
    rw [hb]
    ring

theorem beNat_beBytes_of_lt {k n : Nat} (h : n < 256 ^ k) : beNat (beBytes k n) = n := by
  rw [beNat_beBytes, Nat.mod_eq_of_lt h]

/-- Writing back what was read gives the same bytes: the format has one spelling per number. -/
theorem beBytes_beNat (bs : List UInt8) : beBytes bs.length (beNat bs) = bs := by
  induction bs using List.reverseRecOn with
  | nil => rfl
  | append_singleton bs b ih =>
    have hb : b.toNat < 256 := b.toNat_lt
    have hdiv : (beNat bs * 256 + b.toNat) / 256 = beNat bs := by omega
    have hmod : UInt8.ofNat (beNat bs * 256 + b.toNat) = b := by
      apply UInt8.toNat_inj.mp
      rw [UInt8.toNat_ofNat']
      omega
    rw [List.length_append, List.length_singleton, beNat_concat, beBytes, hdiv, hmod, ih]

end SelfKvm.Wire
