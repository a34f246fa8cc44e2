import ClusterSync.Proofs.Json.Lexeme
import ClusterSync.Proofs.Json.Numbers
import ClusterSync.Proofs.Json.Shape
import Mathlib.Data.List.Forall2

/-!
# Values that were written are read back

**Theorem (`Tree.ofTokens?_tokens`).** The tokens of a syntax tree are read as that tree, however
deep it is.

**Theorem (`Tree.ofText?_render`).** The text of a value is read as the tree that spells it.

**Theorem (`parse?_render_iff`).** Reading that tree gives the value back exactly if containers are
not nested too deep, each number is read back from its digits, and none of the objects begins with
the key that marks an embedded text. An object that does is read as something else: no text holds an
object with that key alone.
-/

namespace ClusterSync.Json

/-! ## The tree of a value -/

mutual

/-- The syntax tree as which a value is written. -/
def tree : Json → Tree
  | .null => .null
  | .bool b => .bool b
  | .num n => .num n.numeral
  | .str s => .str (Piece.ofText s)
  | .arr items => .arr (treeItems items)
  | .obj fields => .obj (treeFields fields)

def treeItems : List Json → List Tree
  | [] => []
  | j :: rest => tree j :: treeItems rest

def treeFields : List (String × Json) → List (List Piece × Tree)
  | [] => []
  | (key, j) :: rest => (Piece.ofText key, tree j) :: treeFields rest

end

namespace Tree

/-- What holds of every tree that holds of its items and fields holds of all trees. -/
@[elab_as_elim]
theorem induct_parts {motive : Tree → Prop} (null : motive .null) (bool : ∀ b, motive (.bool b))
    (num : ∀ n, motive (.num n)) (str : ∀ pieces, motive (.str pieces))
    (arr : ∀ items, (∀ t ∈ items, motive t) → motive (.arr items))
    (obj : ∀ fields, (∀ f ∈ fields, motive f.2) → motive (.obj fields)) (t : Tree) : motive t :=
  match t with
  | .null => null
  | .bool b => bool b
  | .num n => num n
  | .str pieces => str pieces
  | .arr items => arr items fun t _ => induct_parts null bool num str arr obj t
  | .obj fields => obj fields fun f _ => induct_parts null bool num str arr obj f.2
termination_by sizeOf t
decreasing_by
  · have hlt : sizeOf t < sizeOf items := List.sizeOf_lt_of_mem ‹_›
    simp only [Tree.arr.sizeOf_spec]
    omega
  · have hlt : sizeOf f < sizeOf fields := List.sizeOf_lt_of_mem ‹_›
    obtain ⟨key, t⟩ := f
    simp only [Prod.mk.sizeOf_spec, Tree.obj.sizeOf_spec] at hlt ⊢
    omega

/-! ## The tokens of a tree -/

mutual

/-- The tokens of a tree. -/
def tokens : Tree → List Token
  | .null => [.null]
  | .bool b => [.bool b]
  | .num n => [.numeral n]
  | .str pieces => [.text pieces]
  | .arr items => .openArray :: (itemsTokens items ++ [.closeArray])
  | .obj fields => .openObject :: (fieldsTokens fields ++ [.closeObject])

/-- Items with commas between them. -/
def itemsTokens : List Tree → List Token
  | [] => []
  | t :: rest => tokens t ++ moreItemsTokens rest

/-- Items with a comma before each. -/
def moreItemsTokens : List Tree → List Token
  | [] => []
  | t :: rest => .comma :: (tokens t ++ moreItemsTokens rest)

/-- Fields with commas between them. -/
def fieldsTokens : List (List Piece × Tree) → List Token
  | [] => []
  | (key, t) :: rest => .text key :: .colon :: (tokens t ++ moreFieldsTokens rest)

/-- Fields with a comma before each. -/
def moreFieldsTokens : List (List Piece × Tree) → List Token
  | [] => []
  | (key, t) :: rest => .comma :: .text key :: .colon :: (tokens t ++ moreFieldsTokens rest)

end

/-- The tokens of a tree are read as that tree, whatever comes after them. -/
def Completes (t : Tree) : Prop :=
  ∀ (stack : List Frame) (rest : List Token),
    run? .value stack (t.tokens ++ rest) = run? (.after t) stack rest

/-- A tree does not begin with the end of an array. -/
theorem run?_firstItem (t : Tree) (stack : List Frame) (rest : List Token) :
    run? .firstItem stack (t.tokens ++ rest) =
      run? .value (.arr [] :: stack) (t.tokens ++ rest) := by
  cases t <;> rfl

theorem run?_moreItems {items : List Tree} (h : ∀ t ∈ items, t.Completes) (t : Tree)
    (done : List Tree) (stack : List Frame) (rest : List Token) :
    run? (.after t) (.arr done :: stack) (moreItemsTokens items ++ .closeArray :: rest) =
      run? (.after (.arr ((t :: done).reverse ++ items))) stack rest := by
  induction items generalizing t done with
  | nil => rw [List.append_nil]; rfl
  | cons u items ih =>
    have hitem := h u List.mem_cons_self (.arr (t :: done) :: stack)
      (moreItemsTokens items ++ .closeArray :: rest)
    calc run? (.after t) (.arr done :: stack) (moreItemsTokens (u :: items) ++ .closeArray :: rest)
        = run? .value (.arr (t :: done) :: stack)
            (u.tokens ++ (moreItemsTokens items ++ .closeArray :: rest)) := by
          simp only [moreItemsTokens, List.cons_append, List.append_assoc]
          rfl
      _ = run? (.after (.arr ((u :: t :: done).reverse ++ items))) stack rest :=
          hitem.trans (ih (fun v hv => h v (List.mem_cons_of_mem _ hv)) u (t :: done))
      _ = run? (.after (.arr ((t :: done).reverse ++ u :: items))) stack rest := by
          simp

theorem run?_moreFields {fields : List (List Piece × Tree)} (h : ∀ f ∈ fields, f.2.Completes)
    (t : Tree) (key : List Piece) (done : List (List Piece × Tree)) (stack : List Frame)
    (rest : List Token) :
    run? (.after t) (.obj done key :: stack) (moreFieldsTokens fields ++ .closeObject :: rest) =
      run? (.after (.obj (((key, t) :: done).reverse ++ fields))) stack rest := by
  induction fields generalizing t key done with
  | nil => rw [List.append_nil]; rfl
  | cons f fields ih =>
    obtain ⟨key', u⟩ := f
    have hfield := h (key', u) List.mem_cons_self (.obj ((key, t) :: done) key' :: stack)
      (moreFieldsTokens fields ++ .closeObject :: rest)
    calc run? (.after t) (.obj done key :: stack)
          (moreFieldsTokens ((key', u) :: fields) ++ .closeObject :: rest)
        = run? .value (.obj ((key, t) :: done) key' :: stack)
            (u.tokens ++ (moreFieldsTokens fields ++ .closeObject :: rest)) := by
          simp only [moreFieldsTokens, List.cons_append, List.append_assoc]
          rfl
      _ = run? (.after (.obj (((key', u) :: (key, t) :: done).reverse ++ fields))) stack rest :=
          hfield.trans (ih (fun g hg => h g (List.mem_cons_of_mem _ hg)) u key' ((key, t) :: done))
      _ = run? (.after (.obj (((key, t) :: done).reverse ++ (key', u) :: fields))) stack rest := by
          simp

theorem completes (t : Tree) : t.Completes := by
  induction t using induct_parts with
  | arr items ih =>
    intro stack rest
    cases items with
    | nil => rfl
    | cons t items =>
      have hmore := run?_moreItems (fun u hu => ih u (List.mem_cons_of_mem _ hu)) t [] stack rest
      calc run? .value stack ((arr (t :: items)).tokens ++ rest)
          = run? .firstItem stack (t.tokens ++ (moreItemsTokens items ++ .closeArray :: rest)) := by
            simp only [tokens, itemsTokens, List.cons_append, List.append_assoc]
            rfl
        _ = run? (.after t) (.arr [] :: stack) (moreItemsTokens items ++ .closeArray :: rest) :=
            (run?_firstItem t stack _).trans (ih t List.mem_cons_self _ _)
        _ = run? (.after (.arr (t :: items))) stack rest := hmore
  | obj fields ih =>
    intro stack rest
    cases fields with
    | nil => rfl
    | cons f fields =>
      obtain ⟨key, t⟩ := f
      have hmore := run?_moreFields (fun g hg => ih g (List.mem_cons_of_mem _ hg)) t key [] stack
        rest
      calc run? .value stack ((obj ((key, t) :: fields)).tokens ++ rest)
          = run? .value (.obj [] key :: stack)
              (t.tokens ++ (moreFieldsTokens fields ++ .closeObject :: rest)) := by
            simp only [tokens, fieldsTokens, List.cons_append, List.append_assoc]
            rfl
        _ = run? (.after t) (.obj [] key :: stack)
              (moreFieldsTokens fields ++ .closeObject :: rest) := ih _ List.mem_cons_self _ _
        _ = run? (.after (.obj ((key, t) :: fields))) stack rest := hmore
  | null | bool | num | str => exact fun stack rest => rfl

theorem ofTokens?_tokens (t : Tree) : ofTokens? t.tokens = some t := by
  have h := t.completes [] []
  rw [List.append_nil] at h
  exact h

end Tree

/-! ## The text of a value -/

/-- What may come after a value in a text: nothing or the next punctuation. -/
def Delimited : List Char → Prop
  | [] => True
  | c :: _ => c = ',' ∨ c = ']' ∨ c = '\x7d'

namespace Token

variable {rest : List Char}

/-- A numeral ends where it is delimited. -/
theorem scan?_numeral_end {seen : List Char} {token : Token} (h : Delimited rest)
    (hseen : ofNumeral? seen = some token) :
    scan? (.numeral seen) rest = (scan? .between rest).map (token :: ·) := by
  cases rest with
  | nil => simp [scan?, hseen]
  | cons c rest =>
    have hends : inNumeral c = false := by rcases h with rfl | rfl | rfl <;> decide
    simp only [scan?, hends, hseen]
    cases enter? c with
    | none => rfl
    | some entered => cases hrest : scan? entered.2 rest <;> simp [hrest]

/-- A word ends where it is delimited. -/
theorem scan?_word_end {seen : List Char} {token : Token} (h : Delimited rest)
    (hseen : ofWord? seen = some token) :
    scan? (.word seen) rest = (scan? .between rest).map (token :: ·) := by
  cases rest with
  | nil => simp [scan?, hseen]
  | cons c rest =>
    have hends : c.isLower = false := by rcases h with rfl | rfl | rfl <;> decide
    simp only [scan?, hends, hseen]
    cases enter? c with
    | none => rfl
    | some entered => cases hrest : scan? entered.2 rest <;> simp [hrest]

/-- A word is entered and read to its end. -/
theorem scan?_wordChars {c : Char} {cs : List Char} {token : Token} (h : Delimited rest)
    (hc : enter? c = some ([], .word [c])) (hcs : ∀ d ∈ cs, d.isLower = true)
    (hword : ofWord? (cs.reverse ++ [c]) = some token) :
    scan? .between (c :: (cs ++ rest)) = (scan? .between rest).map (token :: ·) := by
  have hlower : ∀ seen, scan? (.word seen) (cs ++ rest) =
      scan? (.word (cs.reverse ++ seen)) rest := by
    clear hword
    induction cs with
    | nil => exact fun _ => rfl
    | cons d cs ih =>
      intro seen
      have hd := hcs d List.mem_cons_self
      rw [List.cons_append, List.reverse_cons, List.append_assoc, List.singleton_append,
        ← ih fun e he => hcs e (List.mem_cons_of_mem _ he)]
      simp [scan?, hd]
  rw [scan?_enter hc, hlower, scan?_word_end h hword]

theorem enter?_numeral {c : Char} (h : c = '-' ∨ c.isDigit = true) :
    enter? c = some ([], .numeral [c]) := by
  rcases h with rfl | h
  · rfl
  · unfold enter?
    split
    · rename_i hspace
      simp only [isSpace, decide_eq_true_eq] at hspace
      rcases hspace with rfl | rfl | rfl | rfl <;> exact absurd h (by decide)
    · split
      case h_8 => rw [if_pos (.inr h)]
      all_goals exact absurd h (by decide)

theorem scan?_inNumeral {cs : List Char} (h : ∀ c ∈ cs, inNumeral c = true) (seen : List Char) :
    scan? (.numeral seen) (cs ++ rest) = scan? (.numeral (cs.reverse ++ seen)) rest := by
  induction cs generalizing seen with
  | nil => rfl
  | cons c cs ih =>
    have hc := h c List.mem_cons_self
    rw [List.cons_append, List.reverse_cons, List.append_assoc, List.singleton_append,
      ← ih fun d hd => h d (List.mem_cons_of_mem _ hd)]
    simp [scan?, hc]

theorem scan?_numberChars (n : Number) (h : Delimited rest) :
    scan? .between (n.chars ++ rest) = (scan? .between rest).map (.numeral n.numeral :: ·) := by
  obtain ⟨m, hm, hchars⟩ := n.exists_numeral
  obtain ⟨c, cs, hcons, hc⟩ := Numeral.exists_chars_eq_cons hm
  have hcs : ∀ d ∈ cs, inNumeral d = true := fun d hd =>
    Numeral.inNumeral_of_mem_chars hm d (hcons ▸ List.mem_cons_of_mem _ hd)
  have heq : n.chars = c :: cs := hchars.trans hcons
  have hseen : ofNumeral? (cs.reverse ++ [c]) = some (.numeral n.numeral) := by
    rw [ofNumeral?, List.reverse_append, List.reverse_reverse, List.reverse_singleton,
      List.singleton_append, ← heq, n.ofChars?_chars]
    rfl
  rw [heq, List.cons_append, scan?_enter (enter?_numeral hc), scan?_inNumeral hcs,
    scan?_numeral_end h hseen]

end Token

open Token in
/-- Characters before a delimiter are scanned as tokens. -/
def Spells (cs : List Char) (ts : List Token) : Prop :=
  ∀ rest, Delimited rest → scan? .between (cs ++ rest) = (scan? .between rest).map (ts ++ ·)

section Spells

variable {cs cs' : List Char} {ts ts' : List Token}

theorem Delimited.append (h : Delimited cs) (h' : Delimited cs') : Delimited (cs ++ cs') := by
  cases cs with
  | nil => exact h'
  | cons c cs => exact h

theorem spells_nil : Spells [] [] := fun rest _ => by
  change Token.scan? .between rest = (Token.scan? .between rest).map id
  rw [Option.map_id_fun, id]

theorem Spells.append (h : Spells cs ts) (h' : Spells cs' ts') (hd : Delimited cs') :
    Spells (cs ++ cs') (ts ++ ts') := by
  intro rest hrest
  rw [List.append_assoc, h _ (hd.append hrest), h' _ hrest, Option.map_map]
  exact congrArg (Option.map · _) (funext fun _ => (List.append_assoc ..).symm)

/-- A character that is a token by itself. -/
theorem Spells.cons {c : Char} {token : Token} (hc : Token.enter? c = some ([token], .between))
    (h : Spells cs ts) : Spells (c :: cs) (token :: ts) := by
  intro rest hrest
  rw [List.cons_append, Token.scan?, hc]
  dsimp only
  rw [Option.bind_eq_bind, Option.bind_some, h rest hrest]
  cases Token.scan? .between rest <;> rfl

theorem Spells.string (s : String) (h : Spells cs ts) :
    Spells (stringChars s ++ cs) (.text (Piece.ofText s) :: ts) := by
  intro rest hrest
  rw [List.append_assoc, Token.scan?_stringChars, h rest hrest, Option.map_map]
  rfl

end Spells

section Containers

variable {items : List Json} {fields : List (String × Json)}

theorem delimited_moreItems (items : List Json) : Delimited (moreItemsChars items) := by
  cases items with
  | nil => trivial
  | cons j items => exact .inl rfl

theorem delimited_moreFields (fields : List (String × Json)) :
    Delimited (moreFieldsChars fields) := by
  cases fields with
  | nil => trivial
  | cons f fields => exact .inl rfl

theorem spells_moreItems (h : ∀ j ∈ items, Spells (chars j) j.tree.tokens) :
    Spells (moreItemsChars items) (Tree.moreItemsTokens (treeItems items)) := by
  induction items with
  | nil => exact spells_nil
  | cons j items ih =>
    have hrest := ih fun k hk => h k (List.mem_cons_of_mem _ hk)
    exact ((h j List.mem_cons_self).append hrest (delimited_moreItems items)).cons rfl

theorem spells_moreFields (h : ∀ f ∈ fields, Spells (chars f.2) f.2.tree.tokens) :
    Spells (moreFieldsChars fields) (Tree.moreFieldsTokens (treeFields fields)) := by
  induction fields with
  | nil => exact spells_nil
  | cons f fields ih =>
    obtain ⟨key, j⟩ := f
    have hj := h (key, j) List.mem_cons_self
    have hrest := ih fun g hg => h g (List.mem_cons_of_mem _ hg)
    have hfield := ((hj.append hrest (delimited_moreFields fields)).cons (c := ':') rfl).string key
    rw [moreFieldsChars, List.cons_append, List.cons_append, List.append_assoc]
    exact hfield.cons rfl

end Containers

theorem spells_chars (j : Json) : Spells (chars j) j.tree.tokens := by
  induction j using induct_parts with
  | null => exact fun _ hrest => Token.scan?_wordChars hrest rfl (List.all_eq_true.1 rfl) rfl
  | bool b =>
    cases b with
    | true => exact fun _ hrest => Token.scan?_wordChars hrest rfl (List.all_eq_true.1 rfl) rfl
    | false => exact fun _ hrest => Token.scan?_wordChars hrest rfl (List.all_eq_true.1 rfl) rfl
  | num n => exact fun _ hrest => Token.scan?_numberChars n hrest
  | str s =>
    have hs := spells_nil.string s
    rwa [List.append_nil] at hs
  | arr items ih =>
    have hclose : Spells [']'] [.closeArray] := spells_nil.cons rfl
    cases items with
    | nil => exact hclose.cons rfl
    | cons j items =>
      have hmore := spells_moreItems fun k hk => ih k (List.mem_cons_of_mem _ hk)
      have hall := (ih j List.mem_cons_self).append hmore (delimited_moreItems items)
      exact (hall.append hclose (.inr (.inl rfl))).cons rfl
  | obj fields ih =>
    have hclose : Spells ['\x7d'] [.closeObject] := spells_nil.cons rfl
    cases fields with
    | nil => exact hclose.cons rfl
    | cons f fields =>
      obtain ⟨key, j⟩ := f
      have hmore := spells_moreFields fun g hg => ih g (List.mem_cons_of_mem _ hg)
      have hj := (ih (key, j) List.mem_cons_self).append hmore (delimited_moreFields fields)
      have hall := (hj.cons (c := ':') rfl).string key
      have hobject := (hall.append hclose (.inr (.inr rfl))).cons (c := '\x7b') rfl
      rw [chars, fieldsChars, List.append_assoc]
      exact hobject

theorem Tree.ofText?_render (j : Json) : ofText? j.render = some j.tree := by
  have hscan : Token.ofChars? (chars j) = some j.tree.tokens := by
    have hend := spells_chars j [] trivial
    rwa [List.append_nil, Token.scan?, Option.map_some, List.append_nil] at hend
  rw [ofText?, render, String.toList_ofList, hscan]
  exact ofTokens?_tokens j.tree

/-! ## The value of a tree -/

/-- No object in a value begins with the key that marks an embedded text. -/
def Unmarked (j : Json) : Prop :=
  j.Each fun i => ∀ f rest, i = .obj (f :: rest) → f.1 ≠ embeddedKey

/-- The numbers in a value are integers. -/
def Integral (j : Json) : Prop := j.Each fun i => ∀ n, i = .num n → n.IsInteger

/-- The numeral of a number stands for it. -/
def Number.IsKept (n : Number) : Prop := n.numeral.number? = some n

theorem Number.IsInteger.isKept {n : Number} (h : n.IsInteger) : n.IsKept := by
  cases n with
  | int i =>
    rw [IsKept, numeral_int]
    exact Numeral.number?_ofInt h
  | real x => exact absurd h id

/-- Each number in a value is read back from its digits. -/
def Kept (j : Json) : Prop := j.Each fun i => ∀ n, i = .num n → n.IsKept

theorem Integral.kept {j : Json} (h : j.Integral) : j.Kept :=
  h.mono fun _ hi n hn => (hi n hn).isKept

namespace Tree

variable {embedded? : String → Option Json} {depth : Nat}

/-- A reader for embedded texts that gives no object with the marking key alone. -/
def Modest (embedded? : String → Option Json) : Prop :=
  ∀ (s : String) (x : Json), embedded? s ≠ some (.obj [(embeddedKey, x)])

theorem values?_eq_some_iff {items : List Tree} {found : List Json} :
    values? embedded? depth items = some found ↔
      List.Forall₂ (fun t j => value? embedded? depth t = some j) items found := by
  induction items generalizing found with
  | nil => simp [values?, eq_comm]
  | cons t items ih =>
    simp only [values?, Option.bind_eq_bind, Option.pure_def, Option.bind_eq_some_iff,
      Option.some.injEq, ih, List.forall₂_cons_left_iff]
    exact ⟨fun ⟨j, hj, js, hjs, heq⟩ => ⟨j, js, hj, hjs, heq.symm⟩,
      fun ⟨j, js, hj, hjs, heq⟩ => ⟨j, hj, js, hjs, heq.symm⟩⟩

theorem fieldValues?_eq_some_iff {fields : List (List Piece × Tree)}
    {found : List (String × Json)} :
    fieldValues? embedded? depth fields = some found ↔
      List.Forall₂ (fun f g => Piece.text? f.1 = some g.1 ∧ value? embedded? depth f.2 = some g.2)
        fields found := by
  induction fields generalizing found with
  | nil => simp [fieldValues?, eq_comm]
  | cons f fields ih =>
    obtain ⟨pieces, t⟩ := f
    simp only [fieldValues?, Option.bind_eq_bind, Option.pure_def, Option.bind_eq_some_iff,
      Option.some.injEq, ih, List.forall₂_cons_left_iff]
    exact ⟨fun ⟨key, hkey, j, hj, js, hjs, heq⟩ => ⟨(key, j), js, ⟨hkey, hj⟩, hjs, heq.symm⟩,
      fun ⟨(key, j), js, ⟨hkey, hj⟩, hjs, heq⟩ => ⟨key, hkey, j, hj, js, hjs, heq.symm⟩⟩

theorem treeItems_eq_map (items : List Json) : treeItems items = items.map Json.tree := by
  induction items with
  | nil => rfl
  | cons j items ih => rw [treeItems, ih, List.map_cons]

theorem treeFields_eq_map (fields : List (String × Json)) :
    treeFields fields = fields.map fun f => (Piece.ofText f.1, f.2.tree) := by
  induction fields with
  | nil => rfl
  | cons f fields ih => rw [treeFields, ih, List.map_cons]

theorem values?_treeItems {items : List Json} :
    values? embedded? depth (treeItems items) = some items ↔
      ∀ j ∈ items, value? embedded? depth j.tree = some j := by
  rw [values?_eq_some_iff, treeItems_eq_map, List.forall₂_map_left_iff, List.forall₂_same]

theorem fieldValues?_treeFields {fields : List (String × Json)} :
    fieldValues? embedded? depth (treeFields fields) = some fields ↔
      ∀ f ∈ fields, value? embedded? depth f.2.tree = some f.2 := by
  rw [fieldValues?_eq_some_iff, treeFields_eq_map, List.forall₂_map_left_iff, List.forall₂_same]
  simp only [Piece.text?_ofText, true_and]

theorem keys_fieldValues? {fields found : List (String × Json)}
    (h : fieldValues? embedded? depth (treeFields fields) = some found) :
    found.map Prod.fst = fields.map Prod.fst := by
  rw [fieldValues?_eq_some_iff, treeFields_eq_map, List.forall₂_map_left_iff] at h
  have hkeys : List.Forall₂ (· = ·) (fields.map Prod.fst) (found.map Prod.fst) := by
    rw [List.forall₂_map_left_iff, List.forall₂_map_right_iff]
    refine h.imp fun f g hfg => ?_
    rw [Piece.text?_ofText] at hfg
    exact Option.some.inj hfg.1
  exact (List.forall₂_eq_eq_eq ▸ hkeys).symm

/-- Fields in increasing order are the object that they are read as. -/
theorem object_fieldValues? {fields : List (String × Json)} (h : Increasing fields) :
    (fieldValues? embedded? depth (treeFields fields)).map object = some (.obj fields) ↔
      ∀ f ∈ fields, value? embedded? depth f.2.tree = some f.2 := by
  rw [← fieldValues?_treeFields]
  constructor
  · intro hobject
    obtain ⟨found, hfound, heq⟩ := Option.map_eq_some_iff.1 hobject
    rw [object_eq_obj (increasing_of_keys_eq (keys_fieldValues? hfound) h)] at heq
    cases heq
    exact hfound
  · intro hfields
    rw [hfields, Option.map_some, object_eq_obj h]

theorem isEmbedded_treeFields {fields : List (String × Json)} :
    isEmbedded (treeFields fields) = true ↔ ∃ f rest, fields = f :: rest ∧ f.1 = embeddedKey := by
  cases fields with
  | nil => simp [treeFields, isEmbedded]
  | cons f rest => simp [treeFields, isEmbedded, Piece.text?_ofText]

/-- An object that begins with the marking key is read as something else. -/
theorem embedded_ne (he : Modest embedded?) {x : Json} {rest : List (String × Json)} :
    (embeddedText? (treeFields ((embeddedKey, x) :: rest))).bind embedded? ≠
      some (.obj ((embeddedKey, x) :: rest)) := by
  cases rest with
  | cons f rest => nofun
  | nil =>
    intro h
    obtain ⟨s, -, hs⟩ := Option.bind_eq_some_iff.1 h
    exact he s x hs

theorem value?_tree_iff (he : Modest embedded?) {j : Json} (hc : j.Canonical) (depth : Nat) :
    value? embedded? depth j.tree = some j ↔ j.nesting ≤ depth ∧ j.Unmarked ∧ j.Kept := by
  rw [canonical_iff] at hc
  induction j using Json.induct_parts generalizing depth with
  | null => simp [Json.tree, value?, nesting, Unmarked, Kept, Each]
  | bool b => simp [Json.tree, value?, nesting, Unmarked, Kept, Each]
  | num n => simp [Json.tree, value?, nesting, Unmarked, Kept, Each, Number.IsKept]
  | str s => simp [Json.tree, value?, Piece.text?_ofText, nesting, Unmarked, Kept, Each]
  | arr items ih =>
    have hitems : ∀ j ∈ items, ∀ depth, value? embedded? depth j.tree = some j ↔
        j.nesting ≤ depth ∧ j.Unmarked ∧ j.Kept := fun j hj depth =>
      ih j hj ((each_arr.1 hc).2 j hj) depth
    cases depth with
    | zero => simp [Json.tree, value?, nesting]
    | succ depth =>
      rw [Json.tree, value?, nesting_arr_le, Unmarked, Kept, each_arr, each_arr,
        Option.map_eq_some_iff]
      simp only [Json.arr.injEq, exists_eq_right, values?_treeItems, reduceCtorEq, false_implies,
        implies_true, true_and]
      rw [← forall₂_and, ← forall₂_and]
      exact forall₂_congr fun j hj => hitems j hj depth
  | obj fields ih =>
    have hfields : ∀ f ∈ fields, ∀ depth, value? embedded? depth f.2.tree = some f.2 ↔
        f.2.nesting ≤ depth ∧ f.2.Unmarked ∧ f.2.Kept := fun f hf depth =>
      ih f hf ((each_obj.1 hc).2 f hf) depth
    have hincreasing := (each_obj.1 hc).1 fields rfl
    cases depth with
    | zero => simp [Json.tree, value?, nesting]
    | succ depth =>
      rw [Json.tree, value?, nesting_obj_le, Unmarked, Kept, each_obj, each_obj]
      split
      · rename_i hembedded
        obtain ⟨⟨key, x⟩, rest, rfl, rfl⟩ := isEmbedded_treeFields.1 hembedded
        exact iff_of_false (embedded_ne he) fun h => h.2.1.1 _ _ rfl rfl
      · rename_i hplain
        have hfirst : ∀ f rest, Json.obj fields = .obj (f :: rest) → f.1 ≠ embeddedKey := by
          rintro f rest ⟨⟩ hkey
          exact hplain (isEmbedded_treeFields.2 ⟨f, rest, rfl, hkey⟩)
        have hnumber : ∀ n, Json.obj fields = .num n → n.IsKept := by rintro _ ⟨⟩
        rw [object_fieldValues? hincreasing, and_iff_right hfirst, and_iff_right hnumber,
          ← forall₂_and, ← forall₂_and]
        exact forall₂_congr fun f hf => hfields f hf depth

/-- An object with the marking key alone has fields that are all of that key. -/
theorem isEmbedded_of_object {fields : List (List Piece × Tree)} {x : Json}
    (h : (fieldValues? embedded? depth fields).map object = some (.obj [(embeddedKey, x)])) :
    isEmbedded fields = true := by
  obtain ⟨found, hfound, heq⟩ := Option.map_eq_some_iff.1 h
  have hsorted : sortFields found = [(embeddedKey, x)] := Json.obj.inj heq
  cases fields with
  | nil =>
    cases hfound
    cases hsorted
  | cons f rest =>
    obtain ⟨⟨key, value⟩, values, ⟨hkey, -⟩, -, rfl⟩ :=
      List.forall₂_cons_left_iff.1 (fieldValues?_eq_some_iff.1 hfound)
    rw [key_eq_of_sortFields hsorted] at hkey
    exact decide_eq_true hkey

/-- Reading a tree gives no object with the marking key alone. -/
theorem value?_ne (he : Modest embedded?) (t : Tree) (x : Json) :
    value? embedded? depth t ≠ some (.obj [(embeddedKey, x)]) := by
  intro h
  cases t with
  | obj fields =>
    cases depth with
    | zero => cases h
    | succ depth =>
      rw [value?] at h
      split at h
      · obtain ⟨s, -, hs⟩ := Option.bind_eq_some_iff.1 h
        exact he s x hs
      · rename_i hplain
        exact hplain (isEmbedded_of_object h)
  | arr items =>
    cases depth with
    | zero => cases h
    | succ depth =>
      rw [value?] at h
      obtain ⟨_, -, heq⟩ := Option.map_eq_some_iff.1 h
      cases heq
  | num n =>
    rw [value?] at h
    obtain ⟨_, -, heq⟩ := Option.map_eq_some_iff.1 h
    cases heq
  | str pieces =>
    rw [value?] at h
    obtain ⟨_, -, heq⟩ := Option.map_eq_some_iff.1 h
    cases heq
  | null | bool => cases h

end Tree

/-! ## Reading what was written -/

theorem modest_parseEmbedding? (n : Nat) : Tree.Modest (parseEmbedding? n) := by
  induction n with
  | zero => exact fun _ _ => nofun
  | succ n ih =>
    intro s x h
    obtain ⟨t, -, ht⟩ := Option.bind_eq_some_iff.1 h
    exact Tree.value?_ne ih t x ht

theorem parse?_render_iff {j : Json} (hc : j.Canonical) :
    parse? j.render = some j ↔ j.nesting ≤ maxDepth ∧ j.Unmarked ∧ j.Kept := by
  rw [parse?, parseEmbedding?, Tree.ofText?_render, Option.bind_some]
  exact Tree.value?_tree_iff (modest_parseEmbedding? _) hc maxDepth

theorem parse?_render_iff_of_integral {j : Json} (hc : j.Canonical) (hi : j.Integral) :
    parse? j.render = some j ↔ j.nesting ≤ maxDepth ∧ j.Unmarked := by
  rw [parse?_render_iff hc, and_iff_left hi.kept]

end ClusterSync.Json
