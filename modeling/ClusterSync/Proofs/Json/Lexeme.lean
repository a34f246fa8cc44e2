import ClusterSync.Json.Token
import ClusterSync.Json.Writer

/-!
# A string is scanned as one token

**Theorem (`Token.scan?_stringChars`).** A string is scanned as a single token, after which a scan
goes on as if it began there.

**Theorem (`Piece.text?_ofText`).** The text of that token is the string that was written.
-/

namespace ClusterSync.Json

/-- How a character of a string that was written is scanned: as a code unit if it has been written
as one. -/
def Piece.ofChar (c : Char) : Piece :=
  if c.toNat < 32 ∧ c ∉ ['\x08', '\x0c', '\n', '\r', '\t'] then .unit c.toNat else .char c

/-- The token of a string. -/
def Piece.ofText (s : String) : List Piece := s.toList.map ofChar

theorem Piece.chars?_unit {u : Nat} (h : u < 0xD800) (pieces : List Piece) :
    chars? (.unit u :: pieces) = (chars? pieces).map (Char.ofNat u :: ·) := by
  have hlow : ¬ 0xD800 ≤ u := Nat.not_le.2 h
  have hhigh : ¬ 0xDC00 ≤ u := fun hle => hlow (Nat.le_trans (by decide) hle)
  cases pieces with
  | nil => simp [chars?, hlow]
  | cons piece rest => cases piece <;> simp [chars?, hlow, hhigh]

theorem Piece.chars?_ofChar (c : Char) (pieces : List Piece) :
    chars? (ofChar c :: pieces) = (chars? pieces).map (c :: ·) := by
  unfold ofChar
  split
  · rename_i h
    rw [chars?_unit (Nat.lt_trans h.1 (by decide)), Char.ofNat_toNat]
  · rfl

theorem Piece.text?_ofText (s : String) : text? (ofText s) = some s := by
  have hchars : ∀ cs : List Char, chars? (cs.map ofChar) = some cs := by
    intro cs
    induction cs with
    | nil => rfl
    | cons c cs ih => rw [List.map_cons, chars?_ofChar, ih]; rfl
  rw [text?, ofText, hchars, Option.map_some, String.ofList_toList]

namespace Token

theorem hexValue?_digitChar {n : Nat} (h : n < 16) : hexValue? (Nat.digitChar n) = some n := by
  decide +revert

theorem scan?_char {c : Char} (hquote : c ≠ '"') (hslash : c ≠ '\\') (hlow : ¬ c.toNat < 32)
    (seen : List Piece) (rest : List Char) :
    scan? (.text seen) (c :: rest) = scan? (.text (.char c :: seen)) rest := by
  simp [scan?, hquote, hslash, hlow]

theorem scan?_hex {n missing : Nat} (hn : n < 16) (hm : 1 < missing) (seen : List Piece)
    (value : Nat) (rest : List Char) :
    scan? (.hex seen missing value) (Nat.digitChar n :: rest) =
      scan? (.hex seen (missing - 1) (value * 16 + n)) rest := by
  simp [scan?, hexValue?_digitChar hn, Nat.not_le.2 hm]

theorem scan?_hex_last {n : Nat} (hn : n < 16) (seen : List Piece) (value : Nat)
    (rest : List Char) :
    scan? (.hex seen 1 value) (Nat.digitChar n :: rest) =
      scan? (.text (.unit (value * 16 + n) :: seen)) rest := by
  simp [scan?, hexValue?_digitChar hn]

/-- The long escape of a control character. -/
theorem scan?_unit {n : Nat} (h : n < 32) (seen : List Piece) (rest : List Char) :
    scan? (.text seen) ('\\' :: 'u' :: '0' :: '0' :: Nat.digitChar (n / 16) ::
      Nat.digitChar (n % 16) :: rest) = scan? (.text (.unit n :: seen)) rest := by
  calc scan? (.text seen) ('\\' :: 'u' :: '0' :: '0' :: Nat.digitChar (n / 16) ::
        Nat.digitChar (n % 16) :: rest)
      = scan? (.hex seen 2 0) (Nat.digitChar (n / 16) :: Nat.digitChar (n % 16) :: rest) := rfl
    _ = scan? (.hex seen 1 (0 * 16 + n / 16)) (Nat.digitChar (n % 16) :: rest) :=
        scan?_hex (by omega) (by decide) _ _ _
    _ = scan? (.text (.unit ((0 * 16 + n / 16) * 16 + n % 16) :: seen)) rest :=
        scan?_hex_last (by omega) _ _ _
    _ = scan? (.text (.unit n :: seen)) rest := by
        rw [show (0 * 16 + n / 16) * 16 + n % 16 = n by omega]

theorem scan?_escapeChar (c : Char) (seen : List Piece) (rest : List Char) :
    scan? (.text seen) (escapeChar c ++ rest) = scan? (.text (.ofChar c :: seen)) rest := by
  unfold escapeChar
  split
  case h_8 _ hquote hslash hb hf hn hr ht =>
    unfold Piece.ofChar
    split
    · rename_i hlow
      have hshort : c ∉ ['\x08', '\x0c', '\n', '\r', '\t'] := by simp_all
      rw [if_pos ⟨hlow, hshort⟩]
      exact scan?_unit hlow seen rest
    · rename_i hlow
      rw [if_neg fun h => hlow h.1]
      exact scan?_char hquote hslash hlow seen rest
  all_goals rfl

theorem scan?_escaped (cs : List Char) (seen : List Piece) (rest : List Char) :
    scan? (.text seen) (cs.flatMap escapeChar ++ '"' :: rest) =
      (scan? .between rest).map (.text (seen.reverse ++ cs.map .ofChar) :: ·) := by
  induction cs generalizing seen with
  | nil => rw [List.map_nil, List.append_nil]; rfl
  | cons c cs ih =>
    rw [List.flatMap_cons, List.append_assoc, scan?_escapeChar, ih, List.reverse_cons,
      List.append_assoc]
    rfl

/-- A character that only begins a token. -/
theorem scan?_enter {c : Char} {mode : Mode} (h : enter? c = some ([], mode)) (cs : List Char) :
    scan? .between (c :: cs) = scan? mode cs := by
  simp [scan?, h]

theorem scan?_stringChars (s : String) (rest : List Char) :
    scan? .between (stringChars s ++ rest) =
      (scan? .between rest).map (.text (Piece.ofText s) :: ·) := by
  have hquote : enter? '"' = some ([], .text []) := rfl
  rw [stringChars, List.cons_append, List.cons_append, scan?_enter hquote, List.append_assoc,
    List.singleton_append, scan?_escaped]
  rfl

end Token

end ClusterSync.Json
