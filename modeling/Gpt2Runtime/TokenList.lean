import Mathlib.Data.List.TakeWhile
import Gpt2Runtime.CommandLine
/-
# What `parse_tokens` accepts

The usage line promises `ID[,ID...]`. The loop of `parse_tokens` has two exits: no comma is left, or the text is
exhausted; the second is also taken when a comma was the last character, so that one comma after a list is
passed over (`Accepts.trailing`, against `TokenList`). Everything else follows the grammar
(`parseTokens_meets_iff`), and a printed list is read back.
-/

namespace Gpt2Runtime.CommandLine

open Loop

/-! ## Numbers -/

/-- A decimal number: digits, after a `-` where the type is signed. -/
inductive Numeral (signed : Prop) : List Char → Int → Prop
  | plain {digits : List Char} (hne : digits ≠ []) (hdigits : ∀ c ∈ digits, c.isDigit = true) :
      Numeral signed digits (Nat.ofDigitChars 10 digits 0)
  | minus {digits : List Char} (hsigned : signed) (hne : digits ≠ []) (hdigits : ∀ c ∈ digits, c.isDigit = true) :
      Numeral signed ('-' :: digits) (-(Nat.ofDigitChars 10 digits 0 : Int))

theorem Numeral.ne_nil {signed : Prop} {text : List Char} {n : Int} (h : Numeral signed text n) : text ≠ [] := by
  cases h with
  | plain hne => exact hne
  | minus => exact List.cons_ne_nil _ _

theorem Numeral.no_comma {signed : Prop} {text : List Char} {n : Int} (h : Numeral signed text n) : ',' ∉ text := by
  have hdigit : ¬Char.isDigit ',' = true := by decide
  cases h with
  | plain _ hdigits => exact fun hmem => hdigit (hdigits ',' hmem)
  | minus _ _ hdigits =>
    intro hmem
    rcases List.mem_cons.1 hmem with h | hmem
    · exact absurd h (by decide)
    · exact hdigit (hdigits ',' hmem)

theorem takeWhile_isDigit {digits : List Char} (h : ∀ c ∈ digits, c.isDigit = true) : digits.takeWhile Char.isDigit = digits :=
  List.takeWhile_eq_self_iff.2 h

theorem dropWhile_isDigit {digits : List Char} (h : ∀ c ∈ digits, c.isDigit = true) : digits.dropWhile Char.isDigit = [] :=
  List.dropWhile_eq_nil_iff.2 h

/-- What is all digits does not start with a `-`. -/
theorem head_ne_minus {digits : List Char} (h : ∀ c ∈ digits, c.isDigit = true) : digits.head? ≠ some '-' := by
  intro hhead
  have hdigit := h '-' (List.mem_of_head? hhead)
  exact absurd hdigit (by decide)

theorem fromDigits_complete_iff {lo hi sign : Int} {text body : List Char} {n : Int} :
    (fromDigits lo hi sign text body).Complete ∧ (fromDigits lo hi sign text body).value = n ↔
      body ≠ [] ∧ (∀ c ∈ body, c.isDigit = true) ∧ n = sign * Nat.ofDigitChars 10 body 0 ∧ lo ≤ n ∧ n ≤ hi := by
  unfold fromDigits FromChars.Complete
  constructor
  · rintro ⟨⟨hec, hptr⟩, hvalue⟩
    by_cases hnil : body.takeWhile Char.isDigit = []
    · simp [hnil] at hec
    · rw [if_neg hnil] at hec hptr hvalue
      split at hec
      · next hrange =>
        rw [if_pos hrange] at hptr hvalue
        have hdigits := List.dropWhile_eq_nil_iff.1 hptr
        rw [takeWhile_isDigit hdigits] at hnil hrange hvalue
        subst hvalue
        exact ⟨hnil, hdigits, rfl, hrange⟩
      · simp at hec
  · rintro ⟨hne, hdigits, rfl, hrange⟩
    simp [takeWhile_isDigit hdigits, dropWhile_isDigit hdigits, hne, hrange]

/-- **`from_chars` on a whole text**: it converts exactly the numerals whose value is in range. -/
theorem fromChars_complete_iff {lo hi : Int} {text : List Char} {n : Int} :
    (fromChars lo hi text).Complete ∧ (fromChars lo hi text).value = n ↔ Numeral (lo < 0) text n ∧ lo ≤ n ∧ n ≤ hi := by
  unfold fromChars
  by_cases hminus : lo < 0 ∧ text.head? = some '-'
  · rw [if_pos hminus, fromDigits_complete_iff]
    obtain ⟨digits, rfl⟩ := List.head?_eq_some_iff.1 hminus.2
    constructor
    · rintro ⟨hne, hdigits, hn, hrange⟩
      rw [Int.neg_one_mul] at hn
      exact ⟨hn ▸ .minus hminus.1 hne hdigits, hrange⟩
    · rintro ⟨hnum, hrange⟩
      cases hnum with
      | plain hne hdigits => exact absurd hminus.2 (head_ne_minus hdigits)
      | minus _ hne hdigits => exact ⟨hne, hdigits, (Int.neg_one_mul _).symm, hrange⟩
  · rw [if_neg hminus, fromDigits_complete_iff]
    constructor
    · rintro ⟨hne, hdigits, hn, hrange⟩
      rw [Int.one_mul] at hn
      exact ⟨hn ▸ .plain hne hdigits, hrange⟩
    · rintro ⟨hnum, hrange⟩
      cases hnum with
      | plain hne hdigits => exact ⟨hne, hdigits, (Int.one_mul _).symm, hrange⟩
      | minus hsigned => exact absurd ⟨hsigned, rfl⟩ hminus

/-! ## The grammar -/

/-- An item: a signed numeral whose value is the token's. -/
def Item (text : List Char) (token : Int32) : Prop := Numeral True text token.toInt

theorem Item.digit {c : Char} (h : c.isDigit = true) {token : Int32} (hvalue : (Nat.ofDigitChars 10 [c] 0 : Int) = token.toInt) :
    Item [c] token := by
  unfold Item
  rw [← hvalue]
  exact .plain (List.cons_ne_nil _ _) (List.forall_mem_singleton.2 h)

/-- `ID(,ID)*` with the values of the items. -/
inductive TokenList : List Char → List Int32 → Prop
  | one {item : List Char} {token : Int32} : Item item token → TokenList item [token]
  | cons {item text : List Char} {token : Int32} {tokens : List Int32} : Item item token → TokenList text tokens →
      TokenList (item ++ ',' :: text) (token :: tokens)

theorem TokenList.ne_nil {text : List Char} {tokens : List Int32} (h : TokenList text tokens) : text ≠ [] := by
  cases h with
  | one hitem => exact hitem.ne_nil
  | cons => simp

/-- A list does not end with a comma. -/
theorem TokenList.getLast?_ne_comma {text : List Char} {tokens : List Int32} (h : TokenList text tokens) :
    text.getLast? ≠ some ',' := by
  induction h with
  | one hitem => exact fun hlast => hitem.no_comma (List.mem_of_getLast? hlast)
  | cons _ htext ih =>
    rw [List.getLast?_append_of_ne_nil _ (List.cons_ne_nil _ _), List.getLast?_cons_of_ne_nil htext.ne_nil]
    exact ih

/-- What the loop accepts: the grammar, or one comma more. -/
inductive Accepts : List Char → List Int32 → Prop
  | one {item : List Char} {token : Int32} : Item item token → Accepts item [token]
  | trailing {item : List Char} {token : Int32} : Item item token → Accepts (item ++ [',']) [token]
  | cons {item text : List Char} {token : Int32} {tokens : List Int32} : Item item token → Accepts text tokens →
      Accepts (item ++ ',' :: text) (token :: tokens)

theorem accepts_iff {text : List Char} {tokens : List Int32} :
    Accepts text tokens ↔ TokenList text tokens ∨ ∃ list, TokenList list tokens ∧ text = list ++ [','] := by
  constructor
  · intro h
    induction h with
    | one hitem => exact .inl (.one hitem)
    | trailing hitem => exact .inr ⟨_, .one hitem, rfl⟩
    | cons hitem _ ih =>
      rcases ih with hlist | ⟨list, hlist, rfl⟩
      · exact .inl (.cons hitem hlist)
      · exact .inr ⟨_, .cons hitem hlist, by simp⟩
  · rintro (h | ⟨list, h, rfl⟩)
    · induction h with
      | one hitem => exact .one hitem
      | cons hitem _ ih => exact .cons hitem ih
    · induction h with
      | one hitem => exact .trailing hitem
      | cons hitem _ ih =>
        rw [List.append_assoc, List.cons_append]
        exact .cons hitem ih

/-! ## The loop -/

theorem parseItem_ok_iff {item : List Char} {token : Int32} : parseItem item = .ok token ↔ Item item token := by
  have hsigned : ((-2 ^ 31 : Int) < 0) = True := eq_true (by decide)
  unfold parseItem
  constructor
  · intro h
    obtain ⟨hne, h⟩ := throwIf_bind_ok.1 h
    obtain ⟨hcomplete, h⟩ := throwIf_bind_ok.1 h
    obtain ⟨hnum, hlo, hhi⟩ := fromChars_complete_iff.1 ⟨not_not.1 hcomplete, rfl⟩
    rw [hsigned] at hnum
    have htoken := congrArg Int32.toInt (Except.ok.inj h)
    rw [Int32.toInt_ofInt_of_le hlo (by omega)] at htoken
    rw [htoken] at hnum
    exact hnum
  · intro h
    have hlo := token.le_toInt
    have hhi := token.toInt_lt
    obtain ⟨hcomplete, hvalue⟩ : (fromChars (-2 ^ 31) (2 ^ 31 - 1) item).Complete ∧
        (fromChars (-2 ^ 31) (2 ^ 31 - 1) item).value = token.toInt :=
      fromChars_complete_iff.2 ⟨hsigned ▸ h, hlo, by omega⟩
    simp only [throwIf_of_not h.ne_nil, throwIf_of_not (not_not.2 hcomplete), ok_bind, pure_ok, hvalue, Int32.ofInt_toInt]

theorem parseItem_error {item : List Char} {e : Exc} (h : parseItem item = .error e) : ∃ what, e = .invalidArgument what := by
  unfold parseItem at h
  rcases bind_eq_error.1 h with h | ⟨_, -, h⟩
  · exact ⟨_, throwIf_error h⟩
  · rcases bind_eq_error.1 h with h | ⟨_, -, h⟩
    · exact ⟨_, throwIf_error h⟩
    · simp at h

theorem takeWhile_item {item : List Char} (h : ',' ∉ item) (text : List Char) :
    (item ++ ',' :: text).takeWhile (· ≠ ',') = item ∧ (item ++ ',' :: text).dropWhile (· ≠ ',') = ',' :: text := by
  have hpos : ∀ c ∈ item, decide (c ≠ ',') = true := by
    intro c hc
    exact decide_eq_true fun heq => h (heq ▸ hc)
  rw [List.takeWhile_append_of_pos hpos, List.dropWhile_append_of_pos hpos]
  simp

/-- An iteration whose item is followed by a comma. -/
theorem parseTokensLoop_comma {item : List Char} (h : ',' ∉ item) (tokens : List Int32) (text : List Char) :
    parseTokensLoop tokens (item ++ ',' :: text) = parseItem item >>= fun token => parseTokensLoop (tokens ++ [token]) text := by
  obtain ⟨htake, hdrop⟩ := takeWhile_item h text
  rw [parseTokensLoop, if_neg (by simp), htake]
  refine congrArg (parseItem item >>= ·) (funext fun token => ?_)
  split
  · next heq => rw [hdrop] at heq; simp at heq
  · next heq => rw [hdrop] at heq; rw [(List.cons.inj heq).2]

/-- The last iteration, `comma == npos`. -/
theorem parseTokensLoop_last {item : List Char} (h : ',' ∉ item) (hne : item ≠ []) (tokens : List Int32) :
    parseTokensLoop tokens item = parseItem item >>= fun token => .ok (tokens ++ [token]) := by
  have hpos : ∀ c ∈ item, decide (c ≠ ',') = true := by
    intro c hc
    exact decide_eq_true fun heq => h (heq ▸ hc)
  have hdrop : item.dropWhile (· ≠ ',') = [] := List.dropWhile_eq_nil_iff.2 hpos
  rw [parseTokensLoop, if_neg hne, List.takeWhile_eq_self_iff.2 hpos]
  refine congrArg (parseItem item >>= ·) (funext fun token => ?_)
  split
  · rfl
  · next heq => rw [hdrop] at heq; simp at heq

@[simp] theorem parseTokensLoop_nil (tokens : List Int32) : parseTokensLoop tokens [] = .ok tokens := by
  rw [parseTokensLoop, if_pos rfl]

/-- A text is one item, or an item, a comma and a shorter text. -/
theorem split_comma (text : List Char) : ',' ∉ text ∨ ∃ item rest, ',' ∉ item ∧ text = item ++ ',' :: rest := by
  by_cases h : ',' ∈ text
  · obtain ⟨item, rest, heq, hitem⟩ := List.eq_append_cons_of_mem h
    exact .inr ⟨item, rest, hitem, heq⟩
  · exact .inl h

theorem parseTokensLoop_accepts {text : List Char} {tokens result : List Int32} (h : parseTokensLoop tokens text = .ok result) :
    text = [] ∧ result = tokens ∨ ∃ parsed, Accepts text parsed ∧ result = tokens ++ parsed := by
  induction hn : text.length using Nat.strong_induction_on generalizing text tokens with
  | _ n ih =>
    rcases split_comma text with hcomma | ⟨item, rest, hcomma, rfl⟩
    · by_cases hne : text = []
      · subst hne
        rw [parseTokensLoop_nil] at h
        exact .inl ⟨rfl, (Except.ok.inj h).symm⟩
      · rw [parseTokensLoop_last hcomma hne] at h
        obtain ⟨token, hitem, h⟩ := bind_eq_ok.1 h
        exact .inr ⟨[token], .one (parseItem_ok_iff.1 hitem), (Except.ok.inj h).symm⟩
    · rw [parseTokensLoop_comma hcomma] at h
      obtain ⟨token, hitem, h⟩ := bind_eq_ok.1 h
      have hlt : rest.length < n := by rw [← hn]; simp; omega
      -- the text was exhausted behind the comma, or another item follows
      rcases ih rest.length hlt h rfl with ⟨rfl, rfl⟩ | ⟨parsed, haccepts, rfl⟩
      · exact .inr ⟨[token], .trailing (parseItem_ok_iff.1 hitem), rfl⟩
      · exact .inr ⟨token :: parsed, .cons (parseItem_ok_iff.1 hitem) haccepts, by simp⟩

theorem Accepts.parseTokensLoop_ok {text : List Char} {parsed : List Int32} (h : Accepts text parsed) (tokens : List Int32) :
    parseTokensLoop tokens text = .ok (tokens ++ parsed) := by
  induction h generalizing tokens with
  | one hitem => rw [parseTokensLoop_last hitem.no_comma hitem.ne_nil, parseItem_ok_iff.2 hitem, ok_bind]
  | trailing hitem =>
    rw [parseTokensLoop_comma hitem.no_comma, parseItem_ok_iff.2 hitem, ok_bind, parseTokensLoop_nil]
  | cons hitem _ ih =>
    rw [parseTokensLoop_comma hitem.no_comma, parseItem_ok_iff.2 hitem, ok_bind, ih, List.append_assoc, List.singleton_append]

theorem parseTokensLoop_error {text : List Char} {tokens : List Int32} {e : Exc} (h : parseTokensLoop tokens text = .error e) :
    ∃ what, e = .invalidArgument what := by
  induction hn : text.length using Nat.strong_induction_on generalizing text tokens with
  | _ n ih =>
    rcases split_comma text with hcomma | ⟨item, rest, hcomma, rfl⟩
    · by_cases hne : text = []
      · rw [hne, parseTokensLoop_nil] at h
        cases h
      · rw [parseTokensLoop_last hcomma hne] at h
        rcases bind_eq_error.1 h with h | ⟨token, -, h⟩
        · exact parseItem_error h
        · cases h
    · rw [parseTokensLoop_comma hcomma] at h
      rcases bind_eq_error.1 h with h | ⟨token, -, h⟩
      · exact parseItem_error h
      · exact ih rest.length (by rw [← hn]; simp; omega) h rfl

/-! ## `parse_tokens` -/

theorem Accepts.tokens_ne_nil {text : List Char} {tokens : List Int32} (h : Accepts text tokens) : tokens ≠ [] := by
  cases h <;> exact List.cons_ne_nil _ _

/-- **What `parse_tokens` returns.** -/
theorem parseTokens_ok_iff {text : List Char} {tokens : List Int32} : parseTokens text = .ok tokens ↔ Accepts text tokens := by
  unfold parseTokens
  constructor
  · intro h
    obtain ⟨result, hloop, h⟩ := bind_eq_ok.1 h
    obtain ⟨hne, h⟩ := throwIf_bind_ok.1 h
    obtain rfl : result = tokens := Except.ok.inj h
    rcases parseTokensLoop_accepts hloop with ⟨-, hnil⟩ | ⟨parsed, haccepts, rfl⟩
    · exact absurd hnil hne
    · exact haccepts
  · intro h
    rw [h.parseTokensLoop_ok [], List.nil_append, ok_bind, throwIf_of_not h.tokens_ne_nil]
    rfl

/-- Every rejection is an `invalid_argument`. -/
theorem parseTokens_error {text : List Char} {e : Exc} (h : parseTokens text = .error e) : ∃ what, e = .invalidArgument what := by
  unfold parseTokens at h
  rcases bind_eq_error.1 h with h | ⟨tokens, -, h⟩
  · exact parseTokensLoop_error h
  · rcases bind_eq_error.1 h with h | ⟨_, -, h⟩
    · exact ⟨_, throwIf_error h⟩
    · cases h

/-- What a parser of the grammar does with a text. -/
def FollowsGrammar (text : List Char) : Prop :=
  (∀ tokens, parseTokens text = .ok tokens ↔ TokenList text tokens) ∧
    ((¬∃ tokens, TokenList text tokens) → ∃ what, parseTokens text = .error (.invalidArgument what))

/-- A list of the grammar with one comma behind it. -/
def TrailingComma (text : List Char) : Prop := ∃ list tokens, TokenList list tokens ∧ text = list ++ [',']

theorem TrailingComma.not_list {text : List Char} (h : TrailingComma text) (tokens : List Int32) : ¬TokenList text tokens := by
  obtain ⟨list, _, _, rfl⟩ := h
  intro hlist
  exact hlist.getLast?_ne_comma (by simp)

theorem followsGrammar_iff (text : List Char) : FollowsGrammar text ↔ ¬TrailingComma text := by
  constructor
  · rintro ⟨hok, -⟩ htrailing
    obtain ⟨list, tokens, hlist, htext⟩ := id htrailing
    have hparse := parseTokens_ok_iff.2 (accepts_iff.2 (.inr ⟨list, hlist, htext⟩))
    exact htrailing.not_list tokens ((hok tokens).1 hparse)
  · intro hno
    have hok : ∀ tokens, parseTokens text = .ok tokens ↔ TokenList text tokens := by
      intro tokens
      rw [parseTokens_ok_iff, accepts_iff]
      refine or_iff_left ?_
      rintro ⟨list, hlist, htext⟩
      exact hno ⟨list, tokens, hlist, htext⟩
    refine ⟨hok, fun hnone => ?_⟩
    cases hparse : parseTokens text with
    | ok tokens => exact absurd ⟨tokens, (hok tokens).1 hparse⟩ hnone
    | error e =>
      obtain ⟨what, rfl⟩ := parseTokens_error hparse
      exact ⟨what, rfl⟩

/-- One token and a comma: the empty item at the end is passed over. -/
theorem trailing_comma_accepted : parseTokens ['1', ','] = .ok [1] ∧ ¬FollowsGrammar ['1', ','] := by
  have hitem : Item ['1'] 1 := .digit rfl rfl
  refine ⟨parseTokens_ok_iff.2 (.trailing hitem), fun h => ?_⟩
  exact (followsGrammar_iff _).1 h ⟨['1'], [1], .one hitem, rfl⟩

/-! ## Printing and reading back -/

/-- A token as it is printed. -/
def printToken (token : Int32) : List Char :=
  if token.toInt < 0 then '-' :: Nat.toDigits 10 token.toInt.natAbs else Nat.toDigits 10 token.toInt.natAbs

def printTokens (tokens : List Int32) : List Char := [','].intercalate (tokens.map printToken)

theorem item_printToken (token : Int32) : Item (printToken token) token := by
  have hdigits : ∀ c ∈ Nat.toDigits 10 token.toInt.natAbs, c.isDigit = true :=
    fun c hc => Nat.isDigit_of_mem_toDigits (by omega) (by omega) hc
  unfold Item printToken
  by_cases hneg : token.toInt < 0
  · have hnum := Numeral.minus trivial Nat.toDigits_ne_nil hdigits
    rw [Nat.ofDigitChars_ten_toDigits] at hnum
    rw [if_pos hneg]
    convert hnum using 1
    omega
  · have hnum : Numeral True _ _ := Numeral.plain Nat.toDigits_ne_nil hdigits
    rw [Nat.ofDigitChars_ten_toDigits] at hnum
    rw [if_neg hneg]
    convert hnum using 1
    omega

theorem tokenList_printTokens : ∀ (token : Int32) (tokens : List Int32), TokenList (printTokens (token :: tokens)) (token :: tokens)
  | token, [] => by
    have hitem := item_printToken token
    simpa [printTokens, List.intercalate] using TokenList.one hitem
  | token, next :: tokens => by
    have ih := tokenList_printTokens next tokens
    have heq : printTokens (token :: next :: tokens) = printToken token ++ ',' :: printTokens (next :: tokens) := by
      simp [printTokens, List.intercalate]
    rw [heq]
    exact .cons (item_printToken token) ih

/-- **`parse_tokens` follows the grammar exactly on the texts that are not a list with a comma behind it**, and it
reads every printed list back. -/
theorem parseTokens_meets_iff (text : List Char) :
    (FollowsGrammar text ↔ ¬TrailingComma text) ∧
      ∀ token tokens, parseTokens (printTokens (token :: tokens)) = .ok (token :: tokens) :=
  ⟨followsGrammar_iff text, fun token tokens => parseTokens_ok_iff.2 (accepts_iff.2 (.inl (tokenList_printTokens token tokens)))⟩

end Gpt2Runtime.CommandLine
