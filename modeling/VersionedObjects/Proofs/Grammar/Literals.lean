import VersionedObjects.Declaration.Printer
import VersionedObjects.Framing.Pipeline
import VersionedObjects.Proofs.Grammar.Decimals

/-!
# Words and literals read back

Words, numbers and quoted text are read back from the text they are printed as. An integer ends
where no point with a digit follows, and quoted text has an escape for each of its characters
that reading would change. Numbers with an exponent and escapes by a code point are not read.
-/

namespace VersionedObjects.Declaration

/-- A printable ASCII character, a newline or a tab. -/
def isPlainChar (c : Char) : Bool :=
  (0x20 ≤ c.toNat && c.toNat ≤ 0x7e) || c == '\n' || c == '\t'

/-- The literal is no floating point number and no text with other than plain characters. -/
def Literal.isPlain : Literal → Bool
  | .float _ => false
  | .string text => text.toList.all isPlainChar
  | .int _ | .bool _ | .null => true

/-- A printable character, a newline or a tab. -/
def isTypeableChar (c : Char) : Bool :=
  Text.isPrintable c || c == '\n' || c == '\t'

/-- What the literal is printed as is in the syntax of literals. -/
def Literal.isTypeable : Literal → Bool
  | .float value => value.isPositional
  | .string text => text.toList.all isTypeableChar
  | .int _ | .bool _ | .null => true

/-- The visible characters of ASCII and the space are printable. -/
theorem isPrintable_of_ascii {c : Char} (h : 0x20 ≤ c.toNat) (h' : c.toNat ≤ 0x7e) :
    Text.isPrintable c = true := by
  rw [Text.isPrintable, if_pos (by omega)]
  exact decide_eq_true h

/-- A plain character is read back. -/
theorem isTypeableChar_of_isPlainChar {c : Char} (h : isPlainChar c = true) :
    isTypeableChar c = true := by
  simp only [isPlainChar, isTypeableChar, Bool.or_eq_true, Bool.and_eq_true,
    decide_eq_true_eq] at h ⊢
  exact h.imp_left (Or.imp_left fun hrange => isPrintable_of_ascii hrange.1 hrange.2)

/-- A plain literal is read back. -/
theorem Literal.isTypeable_of_isPlain {value : Literal} (h : value.isPlain = true) :
    value.isTypeable = true := by
  cases value with
  | float value => cases h
  | string text =>
    rw [isPlain, List.all_eq_true] at h
    rw [isTypeable, List.all_eq_true]
    exact fun c hc => isTypeableChar_of_isPlainChar (h c hc)
  | int _ | bool _ | null => rfl

end VersionedObjects.Declaration

namespace VersionedObjects.Grammar

open Declaration
open Framing (isIdentifier)
open Reader

/-! ## Characters and words -/

/-- A character is read where it stands. -/
theorem reads_char (c : Char) : (char c).Reads [c] () fun _ => True :=
  fun rest _ => by simp [char]

/-- A character is missed where another one stands, or none. -/
theorem misses_char {c : Char} {s : List Char} (h : Avoids (· == c) s) : (char c).Misses s := by
  cases s with
  | nil => exact ⟨_, rfl⟩
  | cons d s =>
    rw [avoids_cons, beq_eq_false_iff_ne] at h
    exact ⟨_, if_neg h⟩

/-- A symbol is read where it stands. -/
theorem reads_symbol {c : Char} (hc : isSolid c = true) : (symbol c).Reads [c] () fun _ => True :=
  (reads_char c).spaced rfl hc

/-- A symbol is missed where another one comes first after blanks. -/
theorem misses_symbol {c : Char} {s : List Char} (h : Avoids (· == c) (skipBlanks s)) :
    (symbol c).Misses s :=
  misses_char h

/-- Values with commas between them are read if a comma may follow each of them, and no comma
follows the last one. -/
theorem reads_commaSeparated {α : Type} {p : Reader α} {text : α → List Char} {a : α}
    {as : List α} {F G : List Char → Prop} (hp : p.Lenient)
    (h : ∀ b ∈ a :: as, p.Reads (text b) b F) (hnext : ∀ rest, F (',' :: rest))
    (hlast : ∀ rest, G rest → F rest ∧ Avoids (· == ',') (skipBlanks rest)) :
    (sepBy₁ (symbol ',') p).Reads (text a ++ as.flatMap fun b => [',', ' '] ++ text b)
      (a :: as) G := by
  rw [List.forall_mem_cons] at h
  have hmore : Reads (many (do symbol ','; p)) (as.flatMap fun b => [',', ' '] ++ text b) as G := by
    refine reads_many (F := F) (fun b hb => ?_) (fun _ _ => by simp) (fun _ _ _ => hnext _)
      fun rest hrest => ⟨(hlast rest hrest).1, (misses_symbol (hlast rest hrest).2).bind _⟩
    exact (reads_symbol (by decide)).bind ((h.2 b hb).space hp)
      fun _ _ => trivial
  refine h.1.bind (hmore.map (a :: ·)) fun rest hrest => ?_
  cases as with
  | nil => exact (hlast rest hrest).1
  | cons b as => exact hnext _

/-- A word is dropped exactly from a text that starts with it. -/
theorem dropWord_eq_some_iff {word s rest : List Char} :
    dropWord word s = some rest ↔ s = word ++ rest := by
  induction word generalizing s with
  | nil => simp [dropWord, eq_comm]
  | cons c word ih =>
    cases s with
    | nil => simp [dropWord]
    | cons d s =>
      by_cases h : c = d
      · simp [dropWord, h, ih]
      · simp [dropWord, h, Ne.symm h]

/-- A word of identifier characters. -/
def IsWord (word : String) : Prop :=
  ∀ c ∈ word.toList, isIdentChar c = true

instance (word : String) : Decidable (IsWord word) :=
  inferInstanceAs (Decidable (∀ c ∈ word.toList, isIdentChar c = true))

/-- A keyword is read where no identifier character follows. -/
theorem reads_keyword (word : String) :
    (keyword word).Reads word.toList () (Avoids isIdentChar) := by
  intro rest hrest
  rw [keyword, dropWord_eq_some_iff.mpr rfl]
  cases rest with
  | nil => rfl
  | cons c rest => rw [avoids_cons] at hrest; simp [hrest]

/-- A keyword is missed where the longest word is another one. -/
theorem misses_keyword {word : String} {s : List Char} (hword : IsWord word)
    (h : s.takeWhile isIdentChar ≠ word.toList) : (keyword word).Misses s := by
  rw [Misses, keyword]
  cases hdrop : dropWord word.toList s with
  | none => exact ⟨_, rfl⟩
  | some rest =>
    rw [dropWord_eq_some_iff] at hdrop
    subst hdrop
    cases rest with
    | nil => exact absurd (takeWhile_append_of_avoids hword (avoids_nil _)) h
    | cons c rest =>
      cases hc : isIdentChar c with
      | true => exact ⟨.here (c :: rest), by simp [hc]⟩
      | false => exact absurd (takeWhile_append_of_avoids hword (avoids_cons.mpr hc)) h

/-- A keyword is missed where its first character is not found. -/
theorem misses_keyword_of_avoids {word : String} (hword : IsWord word) {c : Char} {more : List Char}
    (hcons : word.toList = c :: more) {s : List Char} (h : Avoids (· == c) s) :
    (keyword word).Misses s := by
  refine misses_keyword hword fun hsame => ?_
  rw [hcons] at hsame
  cases s with
  | nil => cases hsame
  | cons d s =>
    rw [avoids_cons, beq_eq_false_iff_ne] at h
    rw [List.takeWhile_cons] at hsame
    split at hsame
    · exact h (List.cons.inj hsame).1
    · cases hsame

/-- The letters by their code points. -/
theorem toNat_of_isAlpha {c : Char} (h : c.isAlpha = true) :
    (65 ≤ c.toNat ∧ c.toNat ≤ 90) ∨ (97 ≤ c.toNat ∧ c.toNat ≤ 122) := by
  change (decide ('A'.val ≤ c.val ∧ c.val ≤ 'Z'.val) ||
    (decide ('a'.val ≤ c.val) && decide (c.val ≤ 'z'.val))) = true at h
  simpa [UInt32.le_iff_toNat_le] using h

/-- What starts an identifier may also go on with it. -/
theorem isIdentChar_of_isIdentStart {c : Char} (h : isIdentStart c = true) :
    isIdentChar c = true := by
  simp only [isIdentStart, isIdentChar, Char.isAlphanum, Bool.or_eq_true] at h ⊢
  exact h.imp_left Or.inl

/-- An identifier is its first character and the characters after it. -/
theorem exists_cons_of_isIdentifier {name : String} (h : isIdentifier name = true) :
    ∃ c rest, name.toList = c :: rest ∧ isIdentStart c = true ∧
      ∀ d ∈ rest, isIdentChar d = true := by
  unfold isIdentifier at h
  cases hname : name.toList with
  | nil => rw [hname] at h; cases h
  | cons c rest =>
    rw [hname, Bool.and_eq_true, List.all_eq_true] at h
    exact ⟨c, rest, rfl, h.1, h.2⟩

/-- An identifier is a word of identifier characters. -/
theorem isWord_of_isIdentifier {name : String} (h : isIdentifier name = true) : IsWord name := by
  obtain ⟨c, rest, hname, hc, hrest⟩ := exists_cons_of_isIdentifier h
  rw [IsWord, hname, List.forall_mem_cons]
  exact ⟨isIdentChar_of_isIdentStart hc, hrest⟩

/-- An identifier is read where no identifier character follows. -/
theorem reads_identifier {name : String} (h : isIdentifier name = true) :
    identifier.Reads name.toList name (Avoids isIdentChar) := by
  intro rest hfollow
  obtain ⟨c, more, hname, hc, hmore⟩ := exists_cons_of_isIdentifier h
  rw [hname, List.cons_append, identifier, if_pos hc, takeWhile_append_of_avoids hmore hfollow,
    dropWhile_append_of_avoids hmore hfollow, ← hname, String.ofList_toList]

/-- No identifier is read where nothing starts one. -/
theorem misses_identifier {s : List Char} (h : Avoids isIdentStart s) : identifier.Misses s := by
  cases s with
  | nil => exact ⟨_, rfl⟩
  | cons c s =>
    rw [avoids_cons] at h
    exact ⟨.here (c :: s), by simp [identifier, h]⟩

/-- An identifier that is read is the longest word there. -/
theorem identifier_eq_done {s rest : List Char} {name : String}
    (h : identifier s = .done name rest) :
    isIdentifier name = true ∧ s.takeWhile isIdentChar = name.toList := by
  cases s with
  | nil => cases h
  | cons c s =>
    simp only [identifier] at h
    split at h
    · next hc =>
      cases h
      rw [isIdentifier, String.toList_ofList, List.takeWhile_cons,
        if_pos (isIdentChar_of_isIdentStart hc)]
      refine ⟨?_, rfl⟩
      rw [Bool.and_eq_true, List.all_eq_true]
      exact ⟨hc, List.all_eq_true.mp List.all_takeWhile⟩
    · cases h

/-! ## Numbers -/

/-- Digits are read where no further digit follows. -/
theorem reads_digits {cs : List Char} (hcs : cs ≠ []) (hdigits : ∀ c ∈ cs, c.isDigit = true) :
    digits.Reads cs cs (Avoids Char.isDigit) := by
  intro rest hrest
  rw [digits, takeWhile_append_of_avoids hdigits hrest, dropWhile_append_of_avoids hdigits hrest]
  cases cs with
  | nil => exact absurd rfl hcs
  | cons c cs => rfl

/-- No digits are read where there are none. -/
theorem misses_digits {s : List Char} (h : Avoids Char.isDigit s) : digits.Misses s := by
  rw [Misses, digits, h.takeWhile_eq_nil]
  exact ⟨_, rfl⟩

/-- A sign is read where it stands, and no sign where none does. -/
theorem reads_sign (negative : Bool) :
    sign.Reads (signText negative) negative
      fun rest => negative = false → Avoids (· == '-') rest := by
  cases negative with
  | true => exact ((reads_char '-').optional.map Option.isSome).mono fun _ _ => trivial
  | false =>
    exact (reads_optional_none fun rest hrest => misses_char (hrest rfl)).map Option.isSome

/-- Digits start with no other character. -/
theorem avoids_of_digits {other : Char} (hother : other.isDigit = false) {cs : List Char}
    (hcs : cs ≠ []) (hdigits : ∀ c ∈ cs, c.isDigit = true) (rest : List Char) :
    Avoids (· == other) (cs ++ rest) := by
  cases cs with
  | nil => exact absurd rfl hcs
  | cons c cs =>
    rw [List.cons_append, avoids_cons, beq_eq_false_iff_ne]
    rintro rfl
    exact absurd (hdigits c (List.mem_cons_self ..)) (by simp [hother])

/-- An integer is printed as a sign and digits that have its value. -/
theorem toList_text_int (value : Int64) : ∃ negative cs,
    (Literal.int value).text.toList = signText negative ++ cs ∧ cs ≠ [] ∧
      (∀ c ∈ cs, c.isDigit = true) ∧ int64? negative cs = some value := by
  have hlt := value.toInt_lt
  have hle := value.le_toInt
  have hvalue := value.ofInt_toInt
  cases hint : value.toInt with
  | ofNat n =>
    rw [hint] at hlt hvalue
    refine ⟨false, Nat.toDigits 10 n, ?_, Nat.toDigits_ne_nil, isDigit_toDigits, ?_⟩
    · simp [Literal.text, hint, ToString.toString, Int.repr, Nat.repr, signText]
    · have hbound : n < Nat.pow 2 63 := by
        rw [Int.ofNat_eq_natCast] at hlt
        simp only [Nat.pow_eq]
        omega
      simp only [int64?, digitsValue_toDigits, hbound, if_true, Bool.false_eq_true, if_false]
      exact congrArg some hvalue
  | negSucc n =>
    rw [hint] at hle hvalue
    refine ⟨true, Nat.toDigits 10 (n + 1), ?_, Nat.toDigits_ne_nil, isDigit_toDigits, ?_⟩
    · simp [Literal.text, hint, ToString.toString, Int.repr, Nat.repr, signText]
    · have hbound : n + 1 ≤ Nat.pow 2 63 := by
        simp only [Nat.pow_eq]
        omega
      simp only [int64?, digitsValue_toDigits, hbound, if_true]
      exact congrArg some hvalue

/-- No digit follows, and a point that comes next starts no fraction. -/
structure EndsDigits (s : List Char) : Prop where
  digits : Avoids Char.isDigit s
  fraction : ∀ rest, s = '.' :: rest → Avoids Char.isDigit rest

/-- A number ends before the text, and a point that comes next starts no fraction. -/
structure EndsNumber (s : List Char) : Prop where
  here : Avoids isIdentChar s
  fraction : ∀ rest, s = '.' :: rest → Avoids Char.isDigit rest

/-- Digits end where a number does. -/
theorem EndsNumber.digits {s : List Char} (h : EndsNumber s) : EndsDigits s :=
  ⟨h.here.mono fun c hc => by simp [isIdentChar, Char.isAlphanum, hc], h.fraction⟩

section Signed

variable {negative : Bool} {cs : List Char}

/-- A sign and digits are read, where no further digit follows. -/
theorem reads_signed (hcs : cs ≠ []) (hdigits : ∀ c ∈ cs, c.isDigit = true) :
    Reader.Reads (do return (← sign, ← digits)) (signText negative ++ cs)
      (negative, cs) (Avoids Char.isDigit) :=
  (reads_sign negative).bind ((reads_digits hcs hdigits).map fun cs => (negative, cs))
    fun rest _ _ => avoids_of_digits (by decide) hcs hdigits rest

/-- Digits without a fraction are no floating-point literal. -/
theorem misses_float (hcs : cs ≠ []) (hdigits : ∀ c ∈ cs, c.isDigit = true) {rest : List Char}
    (hrest : EndsDigits rest) :
    float.Misses (signText negative ++ cs ++ rest) := by
  have hsign := reads_sign negative (cs ++ rest) fun _ =>
    avoids_of_digits (by decide) hcs hdigits rest
  have hwhole := reads_digits hcs hdigits rest hrest.digits
  rw [List.append_assoc]
  refine misses_bind hsign (misses_bind hwhole ?_)
  cases rest with
  | nil => exact (misses_char (avoids_nil _)).bind _
  | cons c rest =>
    by_cases hpoint : c = '.'
    · subst hpoint
      refine misses_bind (reads_char '.' rest trivial) ?_
      exact (misses_digits (hrest.fraction rest rfl)).bind _
    · exact (misses_char (avoids_cons.mpr (beq_eq_false_iff_ne.mpr hpoint))).bind _

end Signed

/-- Text that starts with neither a sign nor a digit holds no number. -/
theorem misses_signed {s : List Char} (hsign : Avoids (· == '-') s)
    (hdigit : Avoids Char.isDigit s) :
    float.Misses s ∧ int.Misses s := by
  have hfirst := reads_sign false s fun _ => hsign
  have hdigits := misses_digits hdigit
  refine ⟨misses_bind hfirst (hdigits.bind _), Misses.filterMap ?_ _⟩
  exact misses_bind hfirst (hdigits.bind _)

/-! ## Quoted text -/

/-- The content of quoted text gives each character back that is not escaped by its code point. -/
theorem stringContent_quoteChar {c : Char} (hc : isTypeableChar c = true) (s : List Char) :
    stringContent (Text.quoteChar c ++ s) =
      (stringContent s).map fun found => (c :: found.1, found.2) := by
  have hplain : c = '\n' ∨ c = '\t' ∨ c = '"' ∨ c = '\\' ∨
      (c ≠ '"' ∧ c ≠ '\\' ∧ Text.quoteChar c = [c]) := by
    by_cases hn : c = '\n'; · exact .inl hn
    by_cases ht : c = '\t'; · exact .inr (.inl ht)
    by_cases hq : c = '"'; · exact .inr (.inr (.inl hq))
    by_cases hb : c = '\\'; · exact .inr (.inr (.inr (.inl hb)))
    have hprintable : Text.isPrintable c = true := by
      simpa [isTypeableChar, hn, ht] using hc
    refine .inr (.inr (.inr (.inr ⟨hq, hb, ?_⟩)))
    have hzero : c ≠ '\x00' := by rintro rfl; exact absurd hprintable (by decide)
    have hreturn : c ≠ '\r' := by rintro rfl; exact absurd hprintable (by decide)
    unfold Text.quoteChar
    split <;> first | contradiction | skip
    rw [if_pos hprintable]
  obtain rfl | rfl | rfl | rfl | ⟨hq, hb, htext⟩ := hplain
  · cases hs : stringContent s <;> simp [Text.quoteChar, stringContent, unescape, hs]
  · cases hs : stringContent s <;> simp [Text.quoteChar, stringContent, unescape, hs]
  · cases hs : stringContent s <;> simp [Text.quoteChar, stringContent, unescape, hs]
  · cases hs : stringContent s <;> simp [Text.quoteChar, stringContent, unescape, hs]
  · rw [htext, List.singleton_append, stringContent.eq_5 _ _ hq (fun _ _ h => absurd h hb)
      (fun h => absurd h hb)]
    cases hs : stringContent s <;> simp

/-- By induction on the text. -/
theorem stringContent_quoteChars {cs : List Char} (h : ∀ c ∈ cs, isTypeableChar c = true)
    (rest : List Char) :
    stringContent (cs.flatMap Text.quoteChar ++ '"' :: rest) = some (cs, '"' :: rest) := by
  induction cs with
  | nil => rfl
  | cons c cs ih =>
    rw [List.forall_mem_cons] at h
    rw [List.flatMap_cons, List.append_assoc, stringContent_quoteChar h.1, ih h.2]
    rfl

/-- A quoted text is read back, if its characters are. -/
theorem reads_string {text : String} (h : ∀ c ∈ text.toList, isTypeableChar c = true) :
    string.Reads (Text.quote text).toList text fun _ => True := by
  have htext : (Text.quote text).toList =
      ['"'] ++ (text.toList.flatMap Text.quoteChar ++ ['"']) := by
    simp [Text.quote, Text.quoteChars]
  have hend := (reads_char '"').commit.map fun _ => text
  rw [htext]
  unfold string
  refine (reads_char '"').bind (Reads.bind (a := text.toList)
    (F := fun rest => ∃ more, rest = '"' :: more) ?_ ?_ fun rest _ => ⟨rest, rfl⟩)
    fun _ _ => trivial
  · rintro _ ⟨more, rfl⟩
    dsimp only
    rw [stringContent_quoteChars h]
  · rwa [String.ofList_toList]

/-- No string is read where no quote stands. -/
theorem misses_string {s : List Char} (h : Avoids (· == '"') s) : string.Misses s :=
  (misses_char h).bind _

/-! ## Literals -/

/-- A character that a number or quoted text starts with. -/
def startsValue (c : Char) : Bool :=
  c == '"' || c == '-' || c.isDigit

/-- A text that starts with no value starts with no quote. -/
theorem Avoids.quote {s : List Char} (h : Avoids startsValue s) : Avoids (· == '"') s :=
  h.mono fun c hc => by simp_all [startsValue]

/-- Words and brackets start no number and no quoted text. -/
theorem Avoids.misses_value {s : List Char} (h : Avoids startsValue s) :
    string.Misses s ∧ float.Misses s ∧ int.Misses s :=
  ⟨misses_string h.quote,
    misses_signed (h.mono fun c hc => by simp_all [startsValue])
      (h.mono fun c hc => by simp_all [startsValue])⟩

/-- The words that are literals. -/
def literalWords : List String :=
  ["true", "false", "null"]

/-- Neither a number nor quoted text nor a literal word. -/
theorem misses_literal {s : List Char} (h : Avoids startsValue s)
    (hwords : ∀ word ∈ literalWords, s.takeWhile isIdentChar ≠ word.toList) :
    literal.Misses s := by
  obtain ⟨hstring, hfloat, hint⟩ := h.misses_value
  have hmiss : ∀ word ∈ literalWords, IsWord word → (keyword word).Misses s :=
    fun word hmem hword => misses_keyword hword (hwords word hmem)
  unfold literal
  simp only [misses_orElse_iff]
  exact ⟨hstring.bind _, hfloat, hint, (hmiss "true" (by decide) (by decide)).bind _,
    (hmiss "false" (by decide) (by decide)).bind _, (hmiss "null" (by decide) (by decide)).bind _⟩

/-- No word starts a number or quoted text. -/
theorem avoids_startsValue {c : Char} (h : isIdentStart c = true) (s : List Char) :
    Avoids startsValue (c :: s) := by
  rw [avoids_cons]
  cases hc : startsValue c with
  | false => rfl
  | true =>
    simp only [startsValue, Bool.or_eq_true, beq_iff_eq] at hc
    obtain (rfl | rfl) | hdigit := hc
    · exact absurd h (by decide)
    · exact absurd h (by decide)
    · have hdigit' : c.toNat ≤ 57 := (Char.isDigit_iff_toNat.mp hdigit).2
      rw [isIdentStart, Bool.or_eq_true, beq_iff_eq] at h
      obtain halpha | rfl := h
      · have hrange := toNat_of_isAlpha halpha
        omega
      · exact absurd hdigit (by decide)

/-- A keyword is missed where another word stands. -/
theorem misses_other_keyword {word other : String} (hne : word ≠ other) (hword : IsWord word)
    (hother : IsWord other) {rest : List Char} (hrest : Avoids isIdentChar rest) :
    (keyword other).Misses (word.toList ++ rest) := by
  refine misses_keyword hother ?_
  rw [takeWhile_append_of_avoids hword hrest]
  exact fun h => hne (String.toList_inj.mp h)

section Numbers

variable {negative : Bool} {cs : List Char}

/-- No string is read where a number stands. -/
theorem misses_string_signed (hcs : cs ≠ []) (hdigits : ∀ c ∈ cs, c.isDigit = true)
    (rest : List Char) : string.Misses (signText negative ++ cs ++ rest) := by
  refine misses_string ?_
  cases negative with
  | true => exact avoids_cons.mpr (by decide)
  | false => exact avoids_of_digits (by decide) hcs hdigits rest

/-- Digits that are in range are read as an integer literal, where no fraction follows. -/
theorem reads_integer (hcs : cs ≠ []) (hdigits : ∀ c ∈ cs, c.isDigit = true) {value : Int64}
    (hvalue : int64? negative cs = some value) :
    literal.Reads (signText negative ++ cs) (.int value) EndsDigits := by
  have hread : int.Reads (signText negative ++ cs) (.int value) EndsDigits :=
    ((reads_signed hcs hdigits).filterMap (by simp [hvalue])).mono fun rest hrest => hrest.digits
  refine reads_orElse (fun rest _ => (misses_string_signed hcs hdigits rest).bind _) ?_
  exact reads_orElse (fun rest hrest => misses_float hcs hdigits hrest) (hread.orElse _)

/-- A decimal is read as the nearest floating-point literal. -/
theorem reads_decimal (negative : Bool) (d : Decimal) :
    literal.Reads (signText negative ++ d.text)
      (.float (Number.Binary64.ofDecimal negative d.value (-d.fraction.length)))
      (Avoids Char.isDigit) := by
  have hread : float.Reads (signText negative ++ d.text)
      (.float (Number.Binary64.ofDecimal negative d.value (-d.fraction.length)))
      (Avoids Char.isDigit) := by
    rw [Decimal.text, ← List.singleton_append]
    refine (reads_sign negative).bind
      ((reads_digits d.whole_ne_nil d.whole_digits).bind
        ((reads_char '.').bind ((reads_digits d.fraction_ne_nil d.fraction_digits).map _)
          fun _ _ => trivial) fun _ _ => avoids_cons.mpr (by decide)) fun rest _ _ => ?_
    rw [List.append_assoc]
    exact avoids_of_digits (by decide) d.whole_ne_nil d.whole_digits _
  refine reads_orElse (fun rest _ => Misses.bind ?_ _) (hread.orElse _)
  have hmiss : string.Misses (signText negative ++ d.whole ++ ('.' :: d.fraction ++ rest)) :=
    misses_string_signed d.whole_ne_nil d.whole_digits _
  rwa [Decimal.text, ← List.append_assoc, List.append_assoc _ _ rest]

end Numbers

/-- Integers are read back from their text. -/
theorem reads_int (value : Int64) :
    literal.Reads (Literal.int value).text.toList (.int value) EndsNumber := by
  obtain ⟨negative, cs, htext, hcs, hdigits, hvalue⟩ := toList_text_int value
  rw [htext]
  exact (reads_integer hcs hdigits hvalue).mono fun rest hrest => hrest.digits

/-- Numbers of the positional range are read back from their text. -/
theorem reads_float {value : Number.Binary64} (h : value.isPositional = true) :
    literal.Reads (Literal.float value).text.toList (.float value) EndsNumber := by
  obtain ⟨d, htext, hvalue⟩ := toList_text_of_isPositional h
  have hread := reads_decimal value.isNegative d
  rw [hvalue] at hread
  rw [Literal.text, htext]
  exact hread.mono fun rest hrest => hrest.digits.digits

/-- Words are tried as literals after text and numbers. -/
theorem reads_literal_of_words {word : String} {value : Literal} {c : Char} {more : List Char}
    (hword : word.toList = c :: more) (hc : isIdentStart c = true)
    (h : Reader.Reads (Reader.orElse (do keyword "true"; return .bool true) <|
      Reader.orElse (do keyword "false"; return .bool false) (do keyword "null"; return .null))
      word.toList value (Avoids isIdentChar)) :
    literal.Reads word.toList value EndsNumber := by
  have hmiss : ∀ rest, string.Misses (word.toList ++ rest) ∧ float.Misses (word.toList ++ rest) ∧
      int.Misses (word.toList ++ rest) := by
    intro rest
    rw [hword]
    exact (avoids_startsValue hc (more ++ rest)).misses_value
  refine reads_orElse (fun rest _ => (hmiss rest).1.bind _) ?_
  refine reads_orElse (fun rest _ => (hmiss rest).2.1) ?_
  exact reads_orElse (fun rest _ => (hmiss rest).2.2) (h.mono fun rest hrest => hrest.here)

/-- Typeable literals are read back from their text. -/
theorem reads_literal {value : Literal} (h : value.isTypeable = true) :
    literal.Reads value.text.toList value EndsNumber := by
  have hmiss : ∀ {word other : String} (value : Literal), IsWord word → IsWord other →
      word ≠ other → ∀ rest, Avoids isIdentChar rest →
        Reader.Misses (do keyword other; return value) (word.toList ++ rest) :=
    fun value hword hother hne rest hrest => (misses_other_keyword hne hword hother hrest).bind _
  cases value with
  | string text =>
    rw [Literal.isTypeable, List.all_eq_true] at h
    exact (((reads_string h).map Literal.string).orElse _).mono fun _ _ => trivial
  | float value => exact reads_float h
  | int value => exact reads_int value
  | bool value =>
    cases value with
    | true =>
      refine reads_literal_of_words (c := 't') rfl (by decide) ?_
      exact ((reads_keyword "true").map fun _ => Literal.bool true).orElse _
    | false =>
      refine reads_literal_of_words (c := 'f') rfl (by decide) ?_
      refine reads_orElse (hmiss _ (by decide) (by decide) (by decide)) ?_
      exact ((reads_keyword "false").map fun _ => Literal.bool false).orElse _
  | null =>
    refine reads_literal_of_words (c := 'n') rfl (by decide) ?_
    refine reads_orElse (hmiss _ (by decide) (by decide) (by decide)) ?_
    refine reads_orElse (hmiss _ (by decide) (by decide) (by decide)) ?_
    exact (reads_keyword "null").map fun _ => Literal.null

end VersionedObjects.Grammar
