import WampClient.Json.Reader
import WampClient.Json.Writer
import Mathlib.Data.List.Basic

/-! Strings and whole numbers in JSON text. A string is read as it was written, whatever characters
it has. A number is, where something follows that cannot belong to it. -/
namespace WampClient.Json

/-! ### Strings -/

theorem hexValue?_hexDigit : ∀ k < 16, hexValue? (hexDigit k) = some k := by decide

theorem unescape_control {c : Char} (control : c.toNat < 0x20) (rest : List Char) :
    unescape ('u' :: '0' :: '0' :: hexDigit (c.toNat / 16) :: hexDigit (c.toNat % 16) :: rest) =
      some (c, rest) := by
  have high := hexValue?_hexDigit (c.toNat / 16) (by omega)
  have low := hexValue?_hexDigit (c.toNat % 16) (by omega)
  have zero : hexValue? '0' = some 0 := rfl
  have code : c.toNat / 16 * 16 + c.toNat % 16 = c.toNat := Nat.div_add_mod' _ _
  have single : ¬ 0xD800 ≤ c.toNat := by omega
  have single' : ¬ 0xDC00 ≤ c.toNat := by omega
  simp [unescape, unicodeEscape, hexQuad, zero, high, low, code, single, single']

/-- A character stands for itself, unless a backslash announces it. -/
theorem escape_cases (c : Char) :
    (escape c = [c] ∧ c ≠ '"' ∧ c ≠ '\\' ∧ ¬ c.toNat < 0x20) ∨
      ∃ body, escape c = '\\' :: body ∧ ∀ rest, unescape (body ++ rest) = some (c, rest) := by
  rw [escape]
  split
  next same => exact Or.inr ⟨['"'], rfl, fun rest => by rw [same]; rfl⟩
  next noQuote =>
  split
  next same => exact Or.inr ⟨['\\'], rfl, fun rest => by rw [same]; rfl⟩
  next noBackslash =>
  split
  next same => exact Or.inr ⟨['b'], rfl, fun rest => by rw [same]; rfl⟩
  split
  next same => exact Or.inr ⟨['f'], rfl, fun rest => by rw [same]; rfl⟩
  split
  next same => exact Or.inr ⟨['n'], rfl, fun rest => by rw [same]; rfl⟩
  split
  next same => exact Or.inr ⟨['r'], rfl, fun rest => by rw [same]; rfl⟩
  split
  next same => exact Or.inr ⟨['t'], rfl, fun rest => by rw [same]; rfl⟩
  split
  next control => exact Or.inr ⟨_, rfl, unescape_control control⟩
  next plain => exact Or.inl ⟨rfl, noQuote, noBackslash, plain⟩

theorem length_flatMap_escape (cs : List Char) : cs.length ≤ (cs.flatMap escape).length := by
  induction cs with
  | nil => exact Nat.le_refl 0
  | cons c cs ih =>
    have one : 1 ≤ (escape c).length := by
      rcases escape_cases c with ⟨same, -⟩ | ⟨body, same, -⟩ <;> simp [same]
    rw [List.flatMap_cons, List.length_append, List.length_cons]
    omega

theorem stringChars_escape {bound cs : List Char} (rest : List Char)
    (bounded : cs.length < bound.length) :
    stringChars bound (cs.flatMap escape ++ '"' :: rest) = some (cs, rest) := by
  induction cs generalizing bound with
  | nil =>
    cases bound with
    | nil => exact absurd bounded (Nat.not_lt_zero _)
    | cons b bound => simp [stringChars]
  | cons c cs ih =>
    cases bound with
    | nil => exact absurd bounded (Nat.not_lt_zero _)
    | cons b bound =>
      have later := ih (Nat.lt_of_succ_lt_succ bounded)
      rcases escape_cases c with ⟨same, noQuote, noBackslash, plain⟩ | ⟨body, same, back⟩
      · simp [same, stringChars, noQuote, noBackslash, plain, later]
      · simp [same, stringChars, back, later]

theorem readString_write (s : String) (rest : List Char) :
    readString (s.toList.flatMap escape ++ '"' :: rest) = some (s, rest) := by
  have bounded : s.toList.length < (s.toList.flatMap escape ++ '"' :: rest).length := by
    have inside := length_flatMap_escape s.toList
    rw [List.length_append, List.length_cons]
    omega
  rw [readString, stringChars_escape rest bounded, Option.map_some, String.ofList_toList]

/-! ### Numbers -/

/-- What stands behind a value: nothing, a comma or a closing bracket. -/
def Ends : List Char → Prop
  | [] => True
  | c :: _ => c = ',' ∨ c = ']' ∨ c = '}'

variable {n value : Nat} {c : Char} {digits rest : List Char} {negative : Bool}

theorem range_of_isDigit (digit : c.isDigit = true) : '0' ≤ c ∧ c ≤ '9' := by
  simpa [Char.isDigit, Char.le_def] using digit

theorem digit?_of_isDigit (digit : c.isDigit = true) : digit? c = some (c.toNat - '0'.toNat) := by
  rw [digit?, if_pos (range_of_isDigit digit)]

theorem le_ofDigitChars : value ≤ Nat.ofDigitChars 10 digits value := by
  induction digits generalizing value with
  | nil => exact Nat.le_refl value
  | cons c digits ih =>
    rw [Nat.ofDigitChars_cons]
    exact Nat.le_trans (by omega) ih

/-- Digits are taken in up to what ends the number, if their value can be held. -/
theorem wholePart_digits (all : ∀ c ∈ digits, c.isDigit = true)
    (fits : Nat.ofDigitChars 10 digits value < 0x10000000000000000) (ends : Ends rest) :
    wholePart value (digits ++ rest) = (⟨Nat.ofDigitChars 10 digits value, 0⟩, false, rest) := by
  induction digits generalizing value with
  | nil =>
    cases rest with
    | nil => rfl
    | cons c rest => rcases ends with rfl | rfl | rfl <;> rfl
  | cons c digits ih =>
    obtain ⟨first, later⟩ := List.forall_mem_cons.mp all
    rw [Nat.ofDigitChars_cons, Nat.mul_comm 10 value] at fits ⊢
    have held : value * 10 + (c.toNat - '0'.toNat) < 0x10000000000000000 :=
      Nat.lt_of_le_of_lt le_ofDigitChars fits
    rw [List.cons_append, wholePart, digit?_of_isDigit first]
    simp only [extend?, if_pos held]
    exact ih later fits

theorem head?_toDigits (positive : 0 < n) : (Nat.toDigits 10 n).head? ≠ some '0' := by
  induction n using Nat.strongRecOn with
  | ind n ih =>
    rw [Nat.toDigits_eq_if (by decide)]
    split
    next small =>
      have apart : ∀ k < 10, 0 < k → [k.digitChar].head? ≠ some '0' := by decide
      exact apart n small positive
    next large =>
      have shorter := ih (n / 10) (by omega) (by omega)
      rwa [List.head?_append_of_ne_nil _ Nat.toDigits_ne_nil]

/-- A number without point and exponent, from its first digit and what the others come to. -/
theorem unsignedPart_of_whole {d : Nat} {text : List Char} (first : digit? c = some d)
    (others : (if d = 0 then (⟨0, 0⟩, false, text) else wholePart d text) =
      ((⟨value, 0⟩ : Significand), false, rest)) (ends : Ends rest) :
    unsignedPart negative (c :: text) = some (wholeNumber negative value, rest) := by
  simp only [unsignedPart, first, Option.bind_eq_bind, Option.bind_some, others]
  cases rest with
  | nil => rfl
  | cons c rest => rcases ends with rfl | rfl | rfl <;> rfl

theorem unsignedPart_natText (fits : n < 0x10000000000000000) (ends : Ends rest) :
    unsignedPart negative (Decimal.natText n ++ rest) = some (wholeNumber negative n, rest) := by
  rcases Nat.eq_zero_or_pos n with rfl | positive
  · exact unsignedPart_of_whole (c := '0') rfl rfl ends
  have all : ∀ c ∈ Nat.toDigits 10 n, c.isDigit = true :=
    fun c there => Nat.isDigit_of_mem_toDigits (by decide) (by decide) there
  have leading := head?_toDigits positive
  have value : Nat.ofDigitChars 10 (Nat.toDigits 10 n) 0 = n := Nat.ofDigitChars_ten_toDigits
  rw [Decimal.natText]
  cases written : Nat.toDigits 10 n with
  | nil => exact absurd written Nat.toDigits_ne_nil
  | cons c digits =>
    rw [written] at all leading value
    obtain ⟨first, later⟩ := List.forall_mem_cons.mp all
    have nonzero : c.toNat - '0'.toNat ≠ 0 := fun zero => by
      have low : '0'.toNat ≤ c.toNat := UInt32.le_iff_toNat_le.mp (range_of_isDigit first).1
      have same : c = '0' := Char.toNat_inj.mp (by omega)
      exact leading (congrArg some same)
    rw [Nat.ofDigitChars_cons, Nat.mul_zero, Nat.zero_add] at value
    have taken := wholePart_digits later (value ▸ fits) ends
    rw [value] at taken
    exact unsignedPart_of_whole (digit?_of_isDigit first) ((if_neg nonzero).trans taken) ends

end WampClient.Json
