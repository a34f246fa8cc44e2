import ClusterSync.Proofs.Json.Numerals
import Mathlib.Data.List.DropRight

/-!
# Numbers are written as numerals

**Theorem (`Number.exists_numeral`).** What is written for a number is a numeral. For an integer it
is its decimal digits; for a floating-point number these are its shortest digits, with the point in
its place or with an exponent. No zero stands in front of them, since no number but zero is nearest
to zero on any grid.
-/

namespace ClusterSync

open Json.Numeral

/-! ## Shortest digits -/

namespace Decimal

/-- Digits of which the first is not zero, unless it stands alone in front of the point. -/
structure Digits.Proper (d : Digits) : Prop where
  digits : AreDigits d.digits
  leading : d = ⟨[0], 1⟩ ∨ ∃ k ks, d.digits = k :: ks ∧ k ≠ 0

theorem Digits.proper_zero : Digits.Proper ⟨[0], 1⟩ :=
  ⟨List.forall_mem_singleton.2 (by decide), .inl rfl⟩

namespace Shortest

variable {x : Binary64} {step : Int}

theorem low_interval_pos (hx : x.mantissa ≠ 0) : 0 < (interval x).1 := by
  unfold interval
  dsimp only
  split <;> omega

/-- No number but zero is nearest to zero on a grid. -/
theorem onGrid?_ne_zero (hx : x.mantissa ≠ 0) : onGrid? x step ≠ some 0 := by
  have hunit : 0 < Nat.pow 2 (x.exponent - 2).toNat * Nat.pow 10 (-step).toNat :=
    Nat.mul_pos (Nat.pow_pos (by decide)) (Nat.pow_pos (by decide))
  have hlow := Nat.mul_pos (low_interval_pos hx) hunit
  unfold onGrid?
  dsimp only
  generalize (interval x).1 * _ = low at *
  generalize 4 * x.mantissa * _ / _ = below
  cases below with
  | zero =>
    -- zero lies below the interval, whether or not the end belongs to it
    have hout (closed : Bool) (unit : Nat) (p q : Prop) [Decidable p] [Decidable q] :
        (if closed then decide (low ≤ 0 * unit) && decide p
          else decide (low < 0 * unit) && decide q) = false := by
      have hle : ¬ low ≤ 0 * unit := by omega
      have hlt : ¬ low < 0 * unit := by omega
      simp only [hle, hlt, decide_false, Bool.false_and, ite_self]
    simp only [hout]
    split <;> simp_all
  | succ below =>
    split
    · split
      · simp
      · split
        · simp
        · split <;> simp
    all_goals simp

theorem leading_decimal {n : Nat} (h : n ≠ 0) : ∃ k ks, decimal n = k :: ks ∧ k ≠ 0 := by
  cases hn : decimal n with
  | nil => exact absurd hn (decimal_ne_nil n)
  | cons k ks =>
    refine ⟨k, ks, rfl, ?_⟩
    rintro rfl
    cases ks with
    | nil =>
      have hvalue := foldl_decimal n
      rw [hn] at hvalue
      exact h hvalue.symm
    | cons d ds => exact decimal_ne_zero_cons n d ds hn

/-- Zeros at the end are left out, and a digit that is not zero stays in front. -/
theorem proper_trimmed {n : Nat} (h : n ≠ 0) (point : Int) :
    Digits.Proper ⟨((decimalDigits n).reverse.dropWhile (· = 0)).reverse, point⟩ := by
  obtain ⟨k, ks, hdigits, hk⟩ := leading_decimal h
  have hleft := List.rdropWhile_prefix (fun d : Nat => decide (d = 0)) (l := decimal n)
  refine ⟨fun d hd => areDigits_decimal n d (List.IsPrefix.subset hleft hd), .inr ?_⟩
  have hne : (decimal n).rdropWhile (fun d => decide (d = 0)) ≠ [] := by
    rw [Ne, List.rdropWhile_eq_nil_iff, hdigits]
    exact fun hall => hk (of_decide_eq_true (hall k List.mem_cons_self))
  cases htrimmed : (decimal n).rdropWhile (fun d => decide (d = 0)) with
  | nil => exact absurd htrimmed hne
  | cons d ds =>
    rw [htrimmed, hdigits] at hleft
    obtain ⟨rfl, -⟩ := List.cons_prefix_cons.1 hleft
    exact ⟨d, ds, htrimmed, hk⟩

theorem proper_search (hx : x.mantissa ≠ 0) (lead : Int) (sizes : List Nat) :
    (search x lead sizes).Proper := by
  induction sizes with
  | nil => exact Digits.proper_zero
  | cons n finer ih =>
    unfold search
    dsimp only
    split
    · rename_i d hd
      exact proper_trimmed (fun hzero => onGrid?_ne_zero hx (hzero ▸ hd)) _
    · exact ih

end Shortest

theorem proper_shortest (x : Binary64) : (shortest x).Proper := by
  unfold shortest
  split
  · exact Digits.proper_zero
  · rename_i hx
    exact Shortest.proper_search (fun h => hx (decide_eq_true h)) _ _

theorem Digits.Proper.exists_cons {d : Digits} (h : d.Proper) : ∃ k ks, d.digits = k :: ks := by
  rcases h.leading with rfl | ⟨k, ks, hd, -⟩
  · exact ⟨0, [], rfl⟩
  · exact ⟨k, ks, hd⟩

end Decimal

/-! ## Notations -/

namespace Json

open Decimal

theorem areDigits_zeros (k : Nat) : AreDigits (List.replicate k 0) := fun d hd => by
  rw [List.eq_of_mem_replicate hd]
  decide

theorem digitChars_zeros (k : Nat) : digitChars (List.replicate k 0) = List.replicate k '0' :=
  List.map_replicate

theorem isWhole_of_leading {k : Nat} {ks : List Nat} (h : AreDigits (k :: ks)) (hk : k ≠ 0) :
    IsWhole (k :: ks) :=
  ⟨h, List.cons_ne_nil _ _, fun _ _ heq => hk (List.cons.inj heq).1⟩

theorem fractionChars_eq {ds : List Nat} (h : ds ≠ []) :
    fractionChars ds = '.' :: digitChars ds := by
  cases ds with
  | nil => exact absurd rfl h
  | cons d ds => rfl

theorem digitChars_append (ds es : List Nat) :
    digitChars (ds ++ es) = digitChars ds ++ digitChars es := List.map_append

section Plain

variable {ds : List Nat} {point : Int}

theorem plainChars_of_nonpos (h : point ≤ 0) : plainChars (digitChars ds) point =
    digitChars [0] ++ '.' :: digitChars (List.replicate (-point).toNat 0 ++ ds) := by
  rw [plainChars, if_pos h, digitChars_append, digitChars_zeros, List.append_assoc]
  rfl

theorem plainChars_of_length_le (h : 0 < point) (hle : ds.length ≤ point.toNat) :
    plainChars (digitChars ds) point =
      digitChars (ds ++ List.replicate (point.toNat - ds.length) 0) ++ '.' :: digitChars [0] := by
  have hlength : (digitChars ds).length = ds.length := List.length_map _
  rw [plainChars, if_neg (Int.not_le.2 h), hlength, if_pos hle, digitChars_append,
    digitChars_zeros]
  rfl

theorem plainChars_of_lt_length (h : 0 < point) (hlt : point.toNat < ds.length) :
    plainChars (digitChars ds) point =
      digitChars (ds.take point.toNat) ++ '.' :: digitChars (ds.drop point.toNat) := by
  have hlength : (digitChars ds).length = ds.length := List.length_map _
  rw [plainChars, if_neg (Int.not_le.2 h), hlength, if_neg (Nat.not_le.2 hlt), digitChars,
    digitChars, digitChars, List.map_take, List.map_drop, List.append_assoc]
  rfl

end Plain

/-- Plain notation: digits, a point and at least one digit. -/
theorem exists_plain {d : Digits} (h : d.Proper) : ∃ whole fraction, IsWhole whole ∧
    AreDigits fraction ∧
    plainChars (digitChars d.digits) d.point = digitChars whole ++ fractionChars fraction := by
  have hzero : AreDigits [0] := List.forall_mem_singleton.2 (by decide)
  by_cases hpoint : d.point ≤ 0
  · -- all digits are behind the point, after zeros
    obtain ⟨k, ks, hd⟩ := h.exists_cons
    have hne : List.replicate (-d.point).toNat 0 ++ d.digits ≠ [] := by
      rw [hd]
      exact List.append_ne_nil_of_right_ne_nil _ (List.cons_ne_nil _ _)
    exact ⟨[0], _, ⟨hzero, List.cons_ne_nil _ _, nofun⟩,
      List.forall_mem_append.2 ⟨areDigits_zeros _, h.digits⟩,
      by rw [plainChars_of_nonpos hpoint, fractionChars_eq hne]⟩
  · have hpositive : 0 < d.point := Int.not_le.1 hpoint
    by_cases hshort : d.digits.length ≤ d.point.toNat
    · -- all digits are in front of the point, before zeros
      have hall := List.forall_mem_append.2
        ⟨h.digits, areDigits_zeros (d.point.toNat - d.digits.length)⟩
      refine ⟨_, [0], ?_, hzero, plainChars_of_length_le hpositive hshort⟩
      rcases h.leading with rfl | ⟨k, ks, hd, hk⟩
      · exact ⟨hall, by decide, nofun⟩
      · rw [hd] at hall ⊢
        exact isWhole_of_leading hall hk
    · have hlong : d.point.toNat < d.digits.length := Nat.not_le.1 hshort
      have hne : d.digits.drop d.point.toNat ≠ [] := mt List.drop_eq_nil_iff.1 hshort
      have htake : AreDigits (d.digits.take d.point.toNat) := fun e he =>
        h.digits e (List.mem_of_mem_take he)
      refine ⟨_, _, ?_, fun e he => h.digits e (List.mem_of_mem_drop he),
        by rw [plainChars_of_lt_length hpositive hlong, fractionChars_eq hne]⟩
      rcases h.leading with rfl | ⟨k, ks, hd, hk⟩
      · exact absurd (Nat.le_refl 1) hshort
      · obtain ⟨p, hp⟩ : ∃ p, d.point.toNat = p + 1 := ⟨d.point.toNat - 1, by omega⟩
        rw [hd, hp, List.take_succ_cons] at htake ⊢
        exact isWhole_of_leading htake hk

/-- Scientific notation: one digit, the others after a point, and an exponent. -/
theorem scientificChars_digitChars (k : Nat) (ks : List Nat) (exponent : Int) :
    scientificChars (digitChars (k :: ks)) exponent = digitChars [k] ++
      (fractionChars ks ++ exponentChars (some (exponent < 0, decimal exponent.natAbs))) := by
  unfold scientificChars
  rw [natChars_eq]
  cases ks <;> by_cases h : exponent < 0 <;> simp [h, digitChars, fractionChars, exponentChars]

namespace Number

theorem exists_numeral (n : Number) : ∃ m : Numeral, m.Proper ∧ n.chars = m.chars := by
  cases n with
  | int i => exact ⟨ofInt i, proper_ofInt i, (chars_ofInt i).symm⟩
  | real x =>
    have hshortest := proper_shortest x
    unfold chars floatChars
    by_cases hlayout : layout.leastPlain ≤ (shortest x).point - 1 ∧
        (shortest x).point - 1 ≤ layout.greatestPlain
    · obtain ⟨whole, fraction, hwhole, hfraction, hplain⟩ := exists_plain hshortest
      refine ⟨⟨x.negative, whole, fraction, none⟩, ⟨hwhole, hfraction, by rintro _ ⟨⟩⟩, ?_⟩
      rw [digitChars] at hplain
      simp only [if_pos hlayout, hplain, Numeral.chars, exponentChars, List.append_nil]
    · obtain ⟨k, ks, hdigits⟩ := hshortest.exists_cons
      obtain ⟨hk, hks⟩ := List.forall_mem_cons.1 (hdigits ▸ hshortest.digits)
      refine ⟨⟨x.negative, [k], ks, some ((shortest x).point - 1 < 0,
        decimal ((shortest x).point - 1).natAbs)⟩, ⟨?_, hks, ?_⟩, ?_⟩
      · exact ⟨List.forall_mem_singleton.2 hk, List.cons_ne_nil _ _, by rintro _ _ ⟨⟩⟩
      · rintro _ ⟨⟩
        exact ⟨areDigits_decimal _, decimal_ne_nil _⟩
      · have hscientific := scientificChars_digitChars k ks ((shortest x).point - 1)
        rw [digitChars] at hscientific
        simp only [if_neg hlayout, hdigits, hscientific, Numeral.chars]

/-- The numeral as which a number is written. -/
def numeral (n : Number) : Numeral := (Numeral.ofChars? n.chars).getD ⟨false, [], [], none⟩

theorem ofChars?_chars (n : Number) : Numeral.ofChars? n.chars = some n.numeral := by
  obtain ⟨m, hm, hchars⟩ := n.exists_numeral
  rw [numeral, hchars, Numeral.ofChars?_chars hm]
  rfl

theorem numeral_int (i : Int) : (int i).numeral = .ofInt i := by
  have h := ofChars?_chars (int i)
  rw [chars, ← chars_ofInt, Numeral.ofChars?_chars (proper_ofInt i)] at h
  exact (Option.some.inj h).symm

end Number

end Json

end ClusterSync
