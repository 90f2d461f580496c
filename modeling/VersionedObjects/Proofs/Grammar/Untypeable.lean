import VersionedObjects.Proofs.Grammar.Expressions

/-!
# Literals that are not read back

Quoted text with an escape that reading does not know is no literal at all. Of a number with an
exponent only the digits before the mark are read, and the names of numbers that are not finite
are read as names. Main statement: `expr_of_not_isTypeable`.
-/

namespace VersionedObjects.Grammar

open Declaration
open Framing (isIdentifier)
open Reader
open Number (Binary64 standardLayout)

/-! ## Quoted text -/

/-- What stands for a character that cannot be typed is an escape that reading does not know. -/
theorem quoteChar_of_not_isTypeableChar {c : Char} (h : isTypeableChar c = false) :
    ∃ d more, Text.quoteChar c = '\\' :: d :: more ∧ unescape d = none := by
  simp only [isTypeableChar, Bool.or_eq_false_iff, beq_eq_false_iff_ne] at h
  obtain ⟨⟨hprintable, hn⟩, ht⟩ := h
  by_cases hzero : c = '\x00'
  · exact ⟨'0', [], by rw [hzero]; rfl, rfl⟩
  by_cases hreturn : c = '\r'
  · exact ⟨'r', [], by rw [hreturn]; rfl, rfl⟩
  have hq : c ≠ '"' := by rintro rfl; exact absurd hprintable (by decide)
  have hb : c ≠ '\\' := by rintro rfl; exact absurd hprintable (by decide)
  refine ⟨'u', '\x7b' :: (Text.hexDigits c.toNat ++ ['\x7d']), ?_, rfl⟩
  unfold Text.quoteChar
  split <;> first | contradiction | skip
  rw [if_neg (by simp [hprintable])]
  rfl

/-- By induction on the text; what comes before the unknown escape is read. -/
theorem stringContent_of_not_isTypeableChar {cs : List Char}
    (h : ∃ c ∈ cs, isTypeableChar c = false) (rest : List Char) :
    stringContent (cs.flatMap Text.quoteChar ++ rest) = none := by
  induction cs with
  | nil => simp at h
  | cons c cs ih =>
    rw [List.flatMap_cons, List.append_assoc]
    cases hc : isTypeableChar c with
    | true =>
      have hrest : ∃ d ∈ cs, isTypeableChar d = false := by simpa [hc] using h
      rw [stringContent_quoteChar hc, ih hrest]
      rfl
    | false =>
      obtain ⟨d, more, htext, hunknown⟩ := quoteChar_of_not_isTypeableChar hc
      rw [htext, List.cons_append, List.cons_append, stringContent, hunknown]
      rfl

/-- The text of a character starts with no quote. -/
theorem avoids_quote_quoteChar (c : Char) (s : List Char) :
    Avoids (· == '"') (Text.quoteChar c ++ s) := by
  unfold Text.quoteChar
  split
  all_goals first | exact avoids_cons.mpr (by decide) | skip
  next hquote _ =>
    split
    · exact avoids_cons.mpr (beq_eq_false_iff_ne.mpr hquote)
    · exact avoids_cons.mpr (by decide)

/-- A quoted text with a character nobody can type stops the reader of strings. -/
theorem string_halts {text : String} (h : ∃ c ∈ text.toList, isTypeableChar c = false)
    (rest : List Char) : ∃ fault, string ((Text.quote text).toList ++ rest) = .halt fault := by
  have htext : (Text.quote text).toList ++ rest =
      '"' :: (text.toList.flatMap Text.quoteChar ++ '"' :: rest) := by
    simp [Text.quote, Text.quoteChars]
  have hcontent := stringContent_of_not_isTypeableChar h ('"' :: rest)
  obtain ⟨c, more, hcons⟩ : ∃ c more, text.toList = c :: more := by
    obtain ⟨c, hc, -⟩ := h
    exact List.exists_cons_of_ne_nil (List.ne_nil_of_mem hc)
  have hunquoted : Avoids (· == '"') (text.toList.flatMap Text.quoteChar ++ '"' :: rest) := by
    rw [hcons, List.flatMap_cons, List.append_assoc]
    exact avoids_quote_quoteChar c _
  obtain ⟨fault, hmiss⟩ := misses_char hunquoted
  generalize text.toList.flatMap Text.quoteChar ++ '"' :: rest = content at *
  have hstart : char '"' ('"' :: content) = .done () content := reads_char '"' content trivial
  have hend : (char '"').commit content = .halt fault := by rw [Reader.commit, hmiss]
  refine ⟨fault, ?_⟩
  rw [htext]
  refine (bind_of_done hstart).trans ?_
  change Reader.bind _ _ content = _
  simp only [Reader.bind, hcontent]
  rw [bind_apply, hend]

/-- Where the reader of strings stops, that of expressions stops with the same fault. -/
theorem expr_halts (depth : Nat) {c : Char} {s : List Char} {fault : Fault}
    (hc : isSolid c = true) (h : string (c :: s) = .halt fault) :
    expr (depth + 1) (c :: s) = .halt fault := by
  have hliteral : literal (c :: s) = .halt fault := by
    rw [literal, Reader.orElse, bind_apply, h]
  have hprimary : primary depth (c :: s) = .halt fault := by
    rw [primary, Reader.orElse, bind_apply, hliteral]
  rw [expr_succ, bind_apply, spaced, skipBlanks_cons_of_isSolid hc, hprimary]

/-! ## Numbers -/

/-- What is left starts with an exponent. -/
def StartsExponent (s : List Char) : Prop :=
  ∃ more, s = 'e' :: more

/-- A literal that an exponent follows is read without it. -/
theorem reads_before_exponent (depth : Nat) {t more : List Char} {c : Char} {value : Literal}
    (hcons : t = c :: more) (hstart : startsExpr c = true)
    (h : literal.Reads t value StartsExponent) :
    (expr (depth + 1)).Reads t (.literal value) StartsExponent := by
  have hpath : Reads (many pathStep) [] [] StartsExponent := by
    refine reads_many_nil ?_
    rintro _ ⟨more, rfl⟩
    exact Misses.bind (misses_char (avoids_cons.mpr (by decide))) _
  rw [expr_succ]
  exact (((h.map Expr.literal).orElse _).spaced hcons (isSolid_of_startsExpr hstart)).bind_nil
    (hpath.map _) fun _ hrest => hrest

/-- One digit is an integer in range, whatever its sign. -/
theorem int64?_digit (negative : Bool) {c : Char} (h : c.isDigit = true) :
    ∃ value, int64? negative [c] = some value := by
  have hrange : c.toNat ≤ 57 := (Char.isDigit_iff_toNat.mp h).2
  have hvalue : digitsValue [c] ≤ 9 := by
    change 10 * 0 + (c.toNat - '0'.toNat) ≤ 9
    have : '0'.toNat = 48 := rfl
    omega
  unfold int64?
  simp only [Nat.pow_eq]
  split
  · exact ⟨_, if_pos (by omega)⟩
  · exact ⟨_, if_pos (by omega)⟩

/-- A finite number outside of the positional range is read up to its exponent. -/
theorem expr_of_exponential {x : Binary64} (hfinite : x.isFinite = true)
    (h : x.isPositional = false) (depth : Nat) (rest : List Char) : ∃ value mid,
      expr (depth + 1) (x.text.toList ++ rest) = .done (.literal value) mid ∧
        StartsExponent mid := by
  have hends : ∀ rest, StartsExponent rest → EndsDigits rest := by
    rintro _ ⟨more, rfl⟩
    exact ⟨avoids_cons.mpr (by decide), by rintro _ ⟨⟩⟩
  obtain ⟨exponent, ⟨c, hc, htext⟩ | ⟨d, htext⟩⟩ := toList_text_of_not_isPositional hfinite h
  · have hdigits : ∀ d ∈ [c], d.isDigit = true := by simpa using hc
    obtain ⟨value, hvalue⟩ := int64?_digit x.isNegative hc
    obtain ⟨first, more, hcons, hstart, -⟩ :=
      exists_cons_signed x.isNegative (List.cons_ne_nil c []) hdigits
    have hread := reads_before_exponent depth hcons hstart
      ((reads_integer (List.cons_ne_nil c []) hdigits hvalue).mono hends)
    have hsplit : x.text.toList ++ rest =
        signText x.isNegative ++ [c] ++ 'e' :: (exponent ++ rest) := by simp [htext]
    rw [hsplit]
    exact ⟨_, _, hread _ ⟨exponent ++ rest, rfl⟩, exponent ++ rest, rfl⟩
  · obtain ⟨first, more, hcons, hstart, -⟩ :=
      exists_cons_signed x.isNegative d.whole_ne_nil d.whole_digits
    have hcons' : signText x.isNegative ++ d.text = first :: (more ++ '.' :: d.fraction) := by
      rw [Decimal.text, ← List.append_assoc, hcons, List.cons_append]
    have hread := reads_before_exponent depth hcons' hstart
      ((reads_decimal x.isNegative d).mono fun rest hrest => (hends rest hrest).digits)
    have hsplit : x.text.toList ++ rest =
        signText x.isNegative ++ d.text ++ 'e' :: (exponent ++ rest) := by simp [htext]
    rw [hsplit]
    exact ⟨_, _, hread _ ⟨exponent ++ rest, rfl⟩, exponent ++ rest, rfl⟩

/-- Where a minus sign stands before no digit, nothing is read. -/
theorem misses_expr_of_sign {s : List Char} (h : Avoids Char.isDigit s) (depth : Nat) :
    (expr depth).Misses ('-' :: s) := by
  cases depth with
  | zero => exact misses_fail _
  | succ depth =>
    have hsign := reads_sign true s fun hfalse => by cases hfalse
    have hdigits := misses_digits h
    have hkeyword : ∀ word : String, IsWord word → word.toList ≠ [] →
        (keyword word).Misses ('-' :: s) :=
      fun word hword hne => misses_keyword hword hne.symm
    have hliteral : literal.Misses ('-' :: s) := by
      unfold literal
      simp only [misses_orElse_iff]
      exact ⟨(misses_string (avoids_cons.mpr (by decide))).bind _,
        misses_bind hsign (hdigits.bind _), Misses.filterMap (misses_bind hsign (hdigits.bind _)) _,
        (hkeyword "true" (by decide) (by decide)).bind _,
        (hkeyword "false" (by decide) (by decide)).bind _,
        (hkeyword "null" (by decide) (by decide)).bind _⟩
    have hprimary : (primary depth).Misses ('-' :: s) := by
      simp only [primary, misses_orElse_iff]
      exact ⟨hliteral.bind _, (misses_char (avoids_cons.mpr (by decide))).bind _,
        (hkeyword "this" (by decide) (by decide)).bind _,
        (hkeyword "field" (by decide) (by decide)).bind _,
        (misses_identifier (avoids_cons.mpr (by decide))).bind _⟩
    rw [expr_succ]
    refine Misses.bind ?_ _
    rw [Misses, spaced, skipBlanks_cons_of_isSolid (by decide)]
    exact hprimary

/-- The names of the numbers that are not finite. -/
theorem toList_text_of_not_isFinite {x : Binary64} (h : x.isFinite = false) :
    ∃ id, isIdentifier id = true ∧ id ∉ Expr.words ∧
      (x.text.toList = id.toList ∨ x.text.toList = '-' :: id.toList) := by
  simp only [Binary64.isFinite, decide_eq_false_iff_not] at h
  cases hnan : x.isNaN with
  | true =>
    refine ⟨"NaN", by decide, by decide, .inl ?_⟩
    rw [Binary64.text, Number.Layout.text, hnan]
    rfl
  | false =>
    have hinfinite : x.isInfinite = true := by
      simp only [Binary64.isNaN, decide_eq_false_iff_not] at hnan
      exact beq_iff_eq.mpr (by omega)
    refine ⟨"inf", by decide, by decide, ?_⟩
    rw [Binary64.text, Number.Layout.text, hnan, hinfinite, if_neg Bool.false_ne_true,
      String.toList_append, if_pos rfl]
    cases x.isNegative with
    | true => exact .inr rfl
    | false => exact .inl rfl

/-- Literals start with the start of an expression, whether they are read back or not. -/
theorem exists_cons_text_of_literal (value : Literal) :
    ∃ c more, value.text.toList = c :: more ∧ startsExpr c = true := by
  cases h : value.isTypeable with
  | true =>
    obtain ⟨c, more, htext, hstart, -⟩ := exists_cons_text_literal h
    exact ⟨c, more, htext, hstart⟩
  | false =>
    cases value with
    | int _ | bool _ | null => cases h
    | string text =>
      exact ⟨'"', text.toList.flatMap Text.quoteChar ++ ['"'], by
        simp [Literal.text, Text.quote, Text.quoteChars], by decide⟩
    | float x =>
      rw [Literal.text]
      cases hfinite : x.isFinite with
      | false =>
        obtain ⟨id, hid, -, htext | htext⟩ := toList_text_of_not_isFinite hfinite
        · obtain ⟨c, more, hcons, hstart, -⟩ := exists_cons_of_isIdentifier hid
          exact ⟨c, more, htext.trans hcons, startsExpr_of_isIdentStart hstart⟩
        · exact ⟨'-', id.toList, htext, by decide⟩
      | true =>
        obtain ⟨exponent, ⟨c, hc, htext⟩ | ⟨d, htext⟩⟩ :=
          toList_text_of_not_isPositional hfinite h
        · obtain ⟨first, more, hcons, hstart, -⟩ := exists_cons_signed x.isNegative
            (List.cons_ne_nil c []) (by simpa using hc)
          refine ⟨first, more ++ 'e' :: exponent, ?_, hstart⟩
          rw [htext, ← List.singleton_append, ← List.append_assoc, hcons, List.cons_append]
        · obtain ⟨first, more, hcons, hstart, -⟩ :=
            exists_cons_signed x.isNegative d.whole_ne_nil d.whole_digits
          refine ⟨first, more ++ ('.' :: d.fraction ++ 'e' :: exponent), ?_, hstart⟩
          rw [htext, Decimal.text, List.append_assoc, ← List.append_assoc, hcons, List.cons_append]

/-- What is read in the place of a literal that cannot be typed is a name, or an exponent is
left. -/
theorem expr_of_not_isTypeable {value : Literal} (h : value.isTypeable = false) {depth : Nat}
    (hdepth : value.text.toList.length < depth) {rest mid : List Char} (hrest : Ends [] rest)
    {e : Expr} (hread : expr depth (value.text.toList ++ rest) = .done e mid) :
    (∃ id, e = .name id) ∨ StartsExponent mid := by
  cases value with
  | int _ | bool _ | null => cases h
  | string text =>
    have huntypeable : ∃ c ∈ text.toList, isTypeableChar c = false := by
      simpa [Literal.isTypeable] using h
    obtain ⟨fault, hhalt⟩ := string_halts huntypeable rest
    have hquote : (Text.quote text).toList ++ rest =
        '"' :: (text.toList.flatMap Text.quoteChar ++ '"' :: rest) := by
      simp [Text.quote, Text.quoteChars]
    obtain ⟨depth, rfl⟩ := Nat.exists_eq_add_one_of_ne_zero (Nat.ne_zero_of_lt hdepth)
    have hexpr := expr_halts depth (c := '"') (by decide) (hquote ▸ hhalt)
    rw [Literal.text, hquote, hexpr] at hread
    cases hread
  | float x =>
    rw [Literal.text] at hread hdepth
    cases hfinite : x.isFinite with
    | true =>
      obtain ⟨depth, rfl⟩ := Nat.exists_eq_add_one_of_ne_zero (Nat.ne_zero_of_lt hdepth)
      obtain ⟨value, left, hdone, hleft⟩ := expr_of_exponential hfinite h depth rest
      rw [hdone] at hread
      cases hread
      exact .inr hleft
    | false =>
      obtain ⟨id, hid, hother, htext | htext⟩ := toList_text_of_not_isFinite hfinite
      · have hname : IsTypeable (.name id) :=
          ⟨by simp [Expr.wellNamed, hid, hother], by simp [Expr.literals]⟩
        rw [htext] at hread hdepth
        have hdone := reads_expr depth hname hdepth rest hrest
        rw [Expr.text] at hdone
        rw [hdone] at hread
        cases hread
        exact .inl ⟨id, rfl⟩
      · obtain ⟨c, more, hcons, hstart, -⟩ := exists_cons_of_isIdentifier hid
        have hdigit : Avoids Char.isDigit (id.toList ++ rest) := by
          rw [hcons]
          exact (avoids_startsValue hstart _).mono fun d hd => by simp [startsValue, hd]
        obtain ⟨fault, hmiss⟩ := misses_expr_of_sign hdigit depth
        rw [htext, List.cons_append, hmiss] at hread
        cases hread

end VersionedObjects.Grammar
