import ClusterSync.Json.Token
import ClusterSync.Json.Writer
import Mathlib.Data.List.TakeWhile

/-!
# Numerals are read back

**Theorem (`Numeral.ofChars?_chars`).** A numeral is what its characters are read as, provided that
no zero stands in front of other digits.

**Theorem (`Numeral.number?_ofInt`).** The numeral of an integer that fits 64 bits stands for it.
-/

namespace ClusterSync.Json

theorem isDigit_digitChar {d : Nat} (h : d < 10) : (Nat.digitChar d).isDigit = true := by
  decide +revert

namespace Numeral

theorem digitValue_digitChar {d : Nat} (h : d < 10) : digitValue (Nat.digitChar d) = d := by
  decide +revert

/-- The characters of digits. -/
def digitChars (ds : List Nat) : List Char := ds.map Nat.digitChar

/-- The characters after the digits in front of the point. -/
def fractionChars : List Nat → List Char
  | [] => []
  | d :: ds => '.' :: digitChars (d :: ds)

/-- The characters of an exponent. -/
def exponentChars : Option (Bool × List Nat) → List Char
  | none => []
  | some (negative, ds) => 'e' :: (if negative then '-' else '+') :: digitChars ds

/-- The characters of a numeral. -/
def chars (n : Numeral) : List Char :=
  let unsigned := digitChars n.whole ++ (fractionChars n.fraction ++ exponentChars n.exponent?)
  if n.negative then '-' :: unsigned else unsigned

/-- Digits that can be written. -/
def AreDigits (ds : List Nat) : Prop := ∀ d ∈ ds, d < 10

/-- Digits in front of a point: there are some, and no zero stands in front of others. -/
structure IsWhole (ds : List Nat) : Prop where
  digits : AreDigits ds
  ne_nil : ds ≠ []
  leading : ∀ d rest, ds ≠ 0 :: d :: rest

/-- A numeral that can be written. -/
structure Proper (n : Numeral) : Prop where
  whole : IsWhole n.whole
  fraction : AreDigits n.fraction
  exponent : ∀ e ∈ n.exponent?, AreDigits e.2 ∧ e.2 ≠ []

section Reading

variable {ds : List Nat} {rest : List Char}

/-- Digits end where no other digit follows. -/
theorem digits_digitChars (h : AreDigits ds) (hrest : ∀ c ∈ rest.head?, c.isDigit = false) :
    digits (digitChars ds ++ rest) = (ds, rest) := by
  have hdigits : ∀ c ∈ digitChars ds, c.isDigit = true := by
    intro c hc
    obtain ⟨d, hd, rfl⟩ := List.mem_map.1 hc
    exact isDigit_digitChar (h d hd)
  have htake : rest.takeWhile Char.isDigit = [] := by
    cases rest with
    | nil => rfl
    | cons c rest => rw [List.takeWhile_cons, hrest c rfl]; rfl
  have hdrop : rest.dropWhile Char.isDigit = rest := by
    cases rest with
    | nil => rfl
    | cons c rest => rw [List.dropWhile_cons, hrest c rfl]; rfl
  have hvalues : (digitChars ds).map digitValue = ds := by
    rw [digitChars, List.map_map]
    exact (List.map_congr_left fun d hd => digitValue_digitChar (h d hd)).trans (List.map_id' ds)
  rw [digits, List.takeWhile_append_of_pos hdigits, List.dropWhile_append_of_pos hdigits, htake,
    hdrop, List.append_nil, hvalues]

theorem wholePart?_digitChars (h : IsWhole ds) (hrest : ∀ c ∈ rest.head?, c.isDigit = false) :
    wholePart? (digitChars ds ++ rest) = some (ds, rest) := by
  unfold wholePart?
  rw [digits_digitChars h.digits hrest]
  split
  · rename_i heq
    exact absurd (Prod.mk.inj heq).1 h.ne_nil
  · rename_i heq
    exact absurd (Prod.mk.inj heq).1 (h.leading _ _)
  · rfl

theorem fractionPart?_fractionChars (h : AreDigits ds)
    (hrest : ∀ c ∈ rest.head?, c.isDigit = false ∧ c ≠ '.') :
    fractionPart? (fractionChars ds ++ rest) = some (ds, rest) := by
  cases ds with
  | nil =>
    cases rest with
    | nil => rfl
    | cons c rest =>
      have hpoint := (hrest c rfl).2
      change fractionPart? (c :: rest) = _
      unfold fractionPart?
      split
      · rename_i heq
        cases heq
        exact absurd rfl hpoint
      · rfl
  | cons d ds =>
    change fractionPart? ('.' :: (digitChars (d :: ds) ++ rest)) = _
    rw [fractionPart?, digits_digitChars h fun c hc => (hrest c hc).1]

theorem exponentPart?_exponentChars {e : Option (Bool × List Nat)}
    (h : ∀ f ∈ e, AreDigits f.2 ∧ f.2 ≠ []) : exponentPart? (exponentChars e) = some e := by
  cases e with
  | none => rfl
  | some e =>
    obtain ⟨negative, ds⟩ := e
    obtain ⟨hdigits, hne⟩ := h _ rfl
    have hread : digits (digitChars ds ++ []) = (ds, []) := digits_digitChars hdigits nofun
    rw [List.append_nil] at hread
    have hsign : exponentSign ((if negative then '-' else '+') :: digitChars ds) =
        (negative, digitChars ds) := by
      cases negative <;> rfl
    rw [exponentChars, exponentPart?, if_pos (.inl rfl), hsign]
    simp only [hread]

end Reading

theorem head?_exponentChars (e : Option (Bool × List Nat)) :
    ∀ c ∈ (exponentChars e).head?, c.isDigit = false ∧ c ≠ '.' := by
  cases e with
  | none => nofun
  | some e =>
    rintro _ ⟨⟩
    decide

theorem head?_fractionChars (ds : List Nat) (e : Option (Bool × List Nat)) :
    ∀ c ∈ (fractionChars ds ++ exponentChars e).head?, c.isDigit = false := by
  cases ds with
  | nil => exact fun c hc => (head?_exponentChars e c hc).1
  | cons d ds =>
    rintro _ ⟨⟩
    decide

variable {n : Numeral}

theorem exists_whole_eq_cons (h : n.Proper) :
    ∃ d ds, d < 10 ∧ n.whole = d :: ds := by
  cases hw : n.whole with
  | nil => exact absurd hw h.whole.ne_nil
  | cons d ds => exact ⟨d, ds, h.whole.digits d (hw ▸ List.mem_cons_self), rfl⟩

/-- A numeral begins with its sign or with a digit. -/
theorem exists_chars_eq_cons (h : n.Proper) :
    ∃ c cs, n.chars = c :: cs ∧ (c = '-' ∨ c.isDigit = true) := by
  obtain ⟨d, ds, hd, hw⟩ := exists_whole_eq_cons h
  cases hn : n.negative with
  | true => exact ⟨'-', _, by rw [chars, hn]; rfl, .inl rfl⟩
  | false => exact ⟨Nat.digitChar d, _, by rw [chars, hn, hw]; rfl, .inr (isDigit_digitChar hd)⟩

theorem inNumeral_of_mem_chars (h : n.Proper) : ∀ c ∈ n.chars, Token.inNumeral c = true := by
  have hdigits {ds : List Nat} (hds : AreDigits ds) :
      ∀ c ∈ digitChars ds, Token.inNumeral c = true := by
    intro c hc
    obtain ⟨d, hd, rfl⟩ := List.mem_map.1 hc
    simp [Token.inNumeral, isDigit_digitChar (hds d hd)]
  have hfraction : ∀ c ∈ fractionChars n.fraction, Token.inNumeral c = true := by
    cases hf : n.fraction with
    | nil => exact List.forall_mem_nil _
    | cons d ds => exact List.forall_mem_cons.2 ⟨rfl, hdigits (hf ▸ h.fraction)⟩
  have hexponent : ∀ c ∈ exponentChars n.exponent?, Token.inNumeral c = true := by
    cases he : n.exponent? with
    | none => exact List.forall_mem_nil _
    | some e =>
      have hsign : Token.inNumeral (if e.1 then '-' else '+') = true := by split <;> rfl
      exact List.forall_mem_cons.2
        ⟨rfl, List.forall_mem_cons.2 ⟨hsign, hdigits (h.exponent e he).1⟩⟩
  have hunsigned := List.forall_mem_append.2
    ⟨hdigits h.whole.digits, List.forall_mem_append.2 ⟨hfraction, hexponent⟩⟩
  unfold chars
  split
  · exact List.forall_mem_cons.2 ⟨rfl, hunsigned⟩
  · exact hunsigned

theorem ofChars?_chars (h : n.Proper) : ofChars? n.chars = some n := by
  obtain ⟨negative, whole, fraction, exponent?⟩ := n
  have hsplit : ofChars? (chars ⟨negative, whole, fraction, exponent?⟩) =
      (wholePart? (digitChars whole ++ (fractionChars fraction ++ exponentChars exponent?))).bind
        fun p => (fractionPart? p.2).bind fun q =>
          (exponentPart? q.2).map fun exponent? => ⟨negative, p.1, q.1, exponent?⟩ := by
    cases negative with
    | true => rfl
    | false =>
      obtain ⟨d, ds, hd, rfl⟩ := exists_whole_eq_cons h
      have hsign : Nat.digitChar d ≠ '-' := by
        intro heq
        have hdigit := isDigit_digitChar hd
        rw [heq] at hdigit
        exact absurd hdigit (by decide)
      change ofChars? (Nat.digitChar d :: _) = _
      unfold ofChars?
      dsimp only
      split
      · rename_i heq
        exact absurd (List.cons.inj heq).1 hsign
      · rfl
  rw [hsplit, wholePart?_digitChars h.whole (head?_fractionChars fraction exponent?),
    Option.bind_some]
  dsimp only
  rw [fractionPart?_fractionChars h.fraction (head?_exponentChars exponent?), Option.bind_some]
  dsimp only
  rw [exponentPart?_exponentChars h.exponent, Option.map_some]

/-! ## Integers -/

/-- The decimal digits of a number. -/
def decimal (n : Nat) : List Nat := (natChars n).map digitValue

theorem decimal_of_lt {n : Nat} (h : n < 10) : decimal n = [n] := by
  rw [decimal, natChars, Nat.toDigits_of_lt_base h, List.map_singleton, digitValue_digitChar h]

theorem decimal_of_le {n : Nat} (h : 10 ≤ n) : decimal n = decimal (n / 10) ++ [n % 10] := by
  rw [decimal, natChars, Nat.toDigits_of_base_le (by decide) h, List.map_append,
    List.map_singleton, digitValue_digitChar (Nat.mod_lt n (by decide))]
  rfl

/-- Digits stand alone, and other numbers come from their tenth. -/
theorem decimal_induct {motive : Nat → Prop} (digit : ∀ n, n < 10 → motive n)
    (tens : ∀ n, 10 ≤ n → motive (n / 10) → motive n) (n : Nat) : motive n := by
  induction n using Nat.strongRecOn with
  | ind n ih =>
    by_cases h : n < 10
    · exact digit n h
    · have hsmaller : n / 10 < n := by omega
      exact tens n (Nat.not_lt.1 h) (ih (n / 10) hsmaller)

theorem foldl_decimal (n : Nat) : (decimal n).foldl (fun a d => a * 10 + d) 0 = n := by
  induction n using decimal_induct with
  | digit n h => simp [decimal_of_lt h]
  | tens n h ih =>
    rw [decimal_of_le h, List.foldl_append, ih]
    exact Nat.div_add_mod' n 10

theorem decimal_ne_nil (n : Nat) : decimal n ≠ [] :=
  mt List.map_eq_nil_iff.1 Nat.toDigits_ne_nil

/-- No zero is written in front of other digits. -/
theorem decimal_ne_zero_cons (n d : Nat) (ds : List Nat) : decimal n ≠ 0 :: d :: ds := by
  induction n using decimal_induct generalizing d ds with
  | digit n h => simp [decimal_of_lt h]
  | tens n h ih =>
    rw [decimal_of_le h]
    intro heq
    cases hdigits : decimal (n / 10) with
    | nil => exact decimal_ne_nil _ hdigits
    | cons e es =>
      rw [hdigits, List.cons_append] at heq
      obtain ⟨rfl, -⟩ := List.cons.inj heq
      cases es with
      | nil =>
        have hvalue := foldl_decimal (n / 10)
        rw [hdigits] at hvalue
        have hzero : n / 10 = 0 := hvalue.symm
        omega
      | cons e' es => exact ih e' es hdigits

theorem areDigits_decimal (n : Nat) : AreDigits (decimal n) := by
  induction n using decimal_induct with
  | digit n h =>
    rw [decimal_of_lt h]
    exact List.forall_mem_singleton.2 h
  | tens n h ih =>
    have hlast : n % 10 < 10 := Nat.mod_lt n (by decide)
    rw [decimal_of_le h]
    exact List.forall_mem_append.2 ⟨ih, List.forall_mem_singleton.2 hlast⟩

theorem natChars_eq (n : Nat) : natChars n = digitChars (decimal n) := by
  induction n using decimal_induct with
  | digit n h =>
    rw [decimal_of_lt h, natChars, Nat.toDigits_of_lt_base h]
    rfl
  | tens n h ih =>
    rw [decimal_of_le h, digitChars, List.map_append, natChars,
      Nat.toDigits_of_base_le (by decide) h]
    exact congrArg (· ++ _) ih

theorem isWhole_decimal (n : Nat) : IsWhole (decimal n) :=
  ⟨areDigits_decimal n, decimal_ne_nil n, decimal_ne_zero_cons n⟩

/-- The numeral of an integer. -/
def ofInt : Int → Numeral
  | .ofNat n => ⟨false, decimal n, [], none⟩
  | .negSucc n => ⟨true, decimal (n + 1), [], none⟩

theorem proper_ofInt (i : Int) : (ofInt i).Proper := by
  cases i <;> exact ⟨isWhole_decimal _, List.forall_mem_nil _, nofun⟩

theorem chars_ofInt (i : Int) : (ofInt i).chars = intChars i := by
  cases i with
  | ofNat n => exact (List.append_nil _).trans (natChars_eq n).symm
  | negSucc n => exact congrArg ('-' :: ·) ((List.append_nil _).trans (natChars_eq (n + 1)).symm)

end Numeral

/-- An integer of the 64-bit ranges, signed or not. -/
def Number.IsInteger : Number → Prop
  | .int i => -9223372036854775808 ≤ i ∧ i < 18446744073709551616
  | .real _ => False

instance (n : Number) : Decidable n.IsInteger :=
  match n with
  | .int _ => inferInstanceAs (Decidable (_ ∧ _))
  | .real _ => inferInstanceAs (Decidable False)

namespace Numeral

theorem integer?_ofInt {i : Int} (h : Number.IsInteger (.int i)) :
    (ofInt i).integer? = some i := by
  obtain ⟨hlow, hhigh⟩ := h
  cases i with
  | ofNat n =>
    have hlt : n < wordBound := Int.ofNat_lt.1 hhigh
    simp [ofInt, integer?, foldl_decimal, hlt]
  | negSucc n =>
    have hle : ¬ 9223372036854775808 < n + 1 := by omega
    simp [ofInt, integer?, foldl_decimal, hle]
    omega

theorem number?_ofInt {i : Int} (h : Number.IsInteger (.int i)) :
    (ofInt i).number? = some (.int i) := by
  rw [number?, integer?_ofInt h]

end Numeral

end ClusterSync.Json
