import VersionedObjects.Dynamic.Value
import VersionedObjects.Proofs.Grammar.Literals
import VersionedObjects.Shell.Command

/-!
# Arguments on the command line

The text of a value is scanned as one value: a separator in it stands between quotes or brackets,
and nothing between the quotes ends them. So values typed after a class, with separators between
them, are what the command is given. Main statement: `parseCommand_new`.
-/

namespace VersionedObjects

namespace Text

open Grammar (Avoids takeWhile_append_of_avoids dropWhile_append_of_avoids)

variable {cs ds word : List Char}

/-! ## Words -/

/-- A text of which no character is blank, and which has some. -/
def IsWord (cs : List Char) : Prop :=
  cs ≠ [] ∧ ∀ c ∈ cs, isBlank c = false

/-- Characters of which none is blank make a word, if there are any. -/
theorem isWord_of_all (hne : cs ≠ []) (h : cs.all (!isBlank ·) = true) : IsWord cs :=
  ⟨hne, fun c hc => by simpa using List.all_eq_true.mp h c hc⟩

/-- A text that neither starts nor ends with a blank, and which has characters. -/
structure IsTrimmed (cs : List Char) : Prop where
  ne_nil : cs ≠ []
  starts : Avoids isBlank cs
  ends : Avoids isBlank cs.reverse

/-- A word has no blanks, so it has none at its ends. -/
theorem IsWord.isTrimmed (h : IsWord cs) : IsTrimmed cs where
  ne_nil := h.1
  starts c hc := h.2 c (List.mem_of_mem_head? hc)
  ends c hc := h.2 c (List.mem_reverse.mp (List.mem_of_mem_head? hc))

/-- How a text starts is settled by its first part, if that has characters. -/
theorem avoids_append_of_ne_nil {bad : Char → Bool} (hne : cs ≠ []) :
    Avoids bad (cs ++ ds) ↔ Avoids bad cs := by
  cases cs with
  | nil => exact absurd rfl hne
  | cons c cs => simp

/-- Nothing is trimmed from the front of a text that starts with a trimmed one. -/
theorem IsTrimmed.trimStart_append (h : IsTrimmed cs) (ds : List Char) :
    trimStart (cs ++ ds) = cs ++ ds :=
  ((avoids_append_of_ne_nil h.ne_nil).mpr h.starts).dropWhile_eq_self

/-- Of a text that ends with something blanks are trimmed only after it. -/
theorem IsTrimmed.trimEnd_append (h : IsTrimmed cs) (ds : List Char) :
    trimEnd (cs ++ ds) = cs ++ trimEnd ds := by
  rw [trimEnd, List.reverse_append, List.dropWhile_append]
  split
  · next hblank => simp [trimEnd, h.ends.dropWhile_eq_self, List.isEmpty_iff.mp hblank]
  · simp [trimEnd]

/-- A word before a blank is the first of the words. -/
theorem IsWord.words_append (hword : IsWord word) (hrest : Avoids (!isBlank ·) cs) :
    words (word ++ cs) = word :: words cs := by
  obtain ⟨c, more, rfl⟩ := List.exists_cons_of_ne_nil hword.1
  have hmore (d : Char) (hd : d ∈ more) : (!isBlank d) = true := by
    simp [hword.2 d (List.mem_cons_of_mem c hd)]
  have hstart : trimStart (c :: more ++ cs) = c :: more ++ cs :=
    hword.isTrimmed.trimStart_append cs
  rw [words]
  split
  · next hnil =>
    rw [hstart] at hnil
    cases hnil
  · next d rest hcons =>
    rw [hstart, List.cons_append, List.cons.injEq] at hcons
    obtain ⟨rfl, rfl⟩ := hcons
    rw [takeWhile_append_of_avoids hmore hrest, dropWhile_append_of_avoids hmore hrest]

/-- The words of a text depend on what is left of it without the blanks at its start. -/
theorem words_congr (h : trimStart cs = trimStart ds) : words cs = words ds := by
  rw [words.eq_def, words.eq_def ds]
  split <;> split <;> simp_all

end Text

namespace Shell

open Grammar (Avoids dropWhile_append_of_avoids)
open Text (IsTrimmed IsWord isBlank)
open VersionedObjects.Dynamic (Value)

variable {cs ds : List Char}

/-! ## Scanning one value -/

/-- A scan outside of quotes takes the text as it stands, where so many lists are open at least. -/
def Taken (least : Nat) (cs : List Char) : Prop :=
  ∀ done current depth, least ≤ depth →
    cs.foldl ValueScan.step { done, current, depth } = { done, current := current ++ cs, depth }

/-- A scan inside of quotes takes the text as it stands and stays there. -/
def TakenQuoted (cs : List Char) : Prop :=
  ∀ done current depth, cs.foldl ValueScan.step { done, current, depth, quoted := true } =
    { done, current := current ++ cs, depth, quoted := true }

/-- Two texts that are each taken are taken in a row. -/
theorem Taken.append {least : Nat} (h : Taken least cs) (h' : Taken least ds) :
    Taken least (cs ++ ds) := by
  intro done current depth hdepth
  rw [List.foldl_append, h done current depth hdepth, h' _ _ _ hdepth, List.append_assoc]

/-- What is taken inside of some lists is taken inside of more. -/
theorem Taken.mono {least more : Nat} (h : Taken least cs) (hle : least ≤ more) :
    Taken more cs := by
  intro done current depth hdepth
  exact h done current depth (by omega)

/-- Two texts that are each taken inside of quotes are taken there in a row. -/
theorem TakenQuoted.append (h : TakenQuoted cs) (h' : TakenQuoted ds) :
    TakenQuoted (cs ++ ds) := by
  intro done current depth
  rw [List.foldl_append, h done current depth, h', List.append_assoc]

/-- Letters, digits, minus signs and dots. -/
def isBare (c : Char) : Bool :=
  c.isAlphanum || c == '-' || c == '.'

/-- Bare characters are ASCII characters after the blank, and neither quotes, commas nor
brackets. -/
theorem toNat_of_isBare {c : Char} (h : isBare c = true) :
    45 ≤ c.toNat ∧ c.toNat ≤ 122 ∧ c.toNat ≠ 91 ∧ c.toNat ≠ 93 := by
  simp only [isBare, Char.isAlphanum, Bool.or_eq_true, beq_iff_eq] at h
  rcases h with ((halpha | hdigit) | rfl) | rfl
  · have hrange := Grammar.toNat_of_isAlpha halpha
    omega
  · have hrange : 48 ≤ c.toNat ∧ c.toNat ≤ 57 := Char.isDigit_iff_toNat.mp hdigit
    omega
  · decide
  · decide

/-- A bare character is not blank. -/
theorem not_isBlank_of_isBare {c : Char} (h : isBare c = true) : isBlank c = false := by
  have hrange := toNat_of_isBare h
  simp [isBlank, Text.blankRanges, Text.Ranges.contains]
  omega

/-- Bare characters are taken everywhere outside of quotes. -/
theorem taken_of_bare (h : ∀ c ∈ cs, isBare c = true) : Taken 0 cs := by
  intro done current depth _
  induction cs generalizing current with
  | nil => simp
  | cons c cs ih =>
    rw [List.forall_mem_cons] at h
    have hstep : ValueScan.step { done, current, depth } c =
        { done, current := current ++ [c], depth } := by
      have hrange := toNat_of_isBare h.1
      have hne (d : Char) (hd : d.toNat < 45 ∨ d.toNat = 91 ∨ d.toNat = 93) : c ≠ d := by
        rintro rfl
        omega
      have hseparator : isSeparator c = false := by
        simp [isSeparator, hne ',' (by decide), hne ' ' (by decide), hne '\t' (by decide)]
      simp [ValueScan.step, hne '"' (by decide), hne '[' (by decide), hne ']' (by decide),
        hseparator]
    rw [List.foldl_cons, hstep, ih h.2]
    simp

/-- What a list is open for is taken with its brackets wherever the list stands. -/
theorem Taken.bracket (h : Taken 1 cs) : Taken 0 (['['] ++ cs ++ [']']) := by
  intro done current depth _
  have hopen : ValueScan.step { done, current, depth } '[' =
      { done, current := current ++ ['['], depth := depth + 1 } := by
    simp [ValueScan.step]
  have hclose (taken : List Char) :
      ValueScan.step { done, current := taken, depth := depth + 1 } ']' =
        { done, current := taken ++ [']'], depth } := by
    simp [ValueScan.step]
  simp only [List.foldl_append, List.foldl_cons, List.foldl_nil]
  rw [hopen, h _ _ _ (by omega), hclose]
  simp

/-- Between items a separator is taken, since their list is open. -/
theorem taken_comma : Taken 1 [',', ' '] := by
  intro done current depth hdepth
  have hopen : (depth == 0) = false := by simp; omega
  simp [ValueScan.step, isSeparator, hopen]

/-! ## Quoted text -/

/-- Inside of quotes all but quotes and backslashes is taken. -/
theorem takenQuoted_of_ne (h : ∀ c ∈ cs, c ≠ '"' ∧ c ≠ '\\') : TakenQuoted cs := by
  intro done current depth
  induction cs generalizing current with
  | nil => simp
  | cons c cs ih =>
    rw [List.forall_mem_cons] at h
    have hstep : ValueScan.step { done, current, depth, quoted := true } c =
        { done, current := current ++ [c], depth, quoted := true } := by
      simp [ValueScan.step, h.1]
    rw [List.foldl_cons, hstep, ih h.2]
    simp

/-- After a backslash any character is taken. -/
theorem takenQuoted_escape (c : Char) : TakenQuoted ['\\', c] := by
  intro done current depth
  simp [ValueScan.step]

/-- A quoted character is escaped by one character, stands for itself, or is written as its code. -/
theorem quoteChar_cases (c : Char) : (∃ d, Text.quoteChar c = ['\\', d]) ∨
    (c ≠ '"' ∧ c ≠ '\\' ∧ Text.quoteChar c = [c]) ∨
      Text.quoteChar c = ['\\', 'u'] ++ (['\x7b'] ++ Text.hexDigits c.toNat ++ ['\x7d']) := by
  unfold Text.quoteChar
  split
  case h_7 _ _ _ _ _ hquote hslash =>
    split
    · exact .inr (.inl ⟨hquote, hslash, rfl⟩)
    · exact .inr (.inr (by simp))
  all_goals exact .inl ⟨_, rfl⟩

/-- A code is written in digits. -/
theorem exists_digitChar_of_mem_hexDigits {n : Nat} :
    ∀ c ∈ Text.hexDigits n, ∃ digit, c = Nat.digitChar digit := by
  unfold Text.hexDigits
  induction n using Nat.strongRecOn with
  | ind n ih =>
    intro c hc
    rw [Nat.toDigits_eq_if (by decide)] at hc
    split at hc
    · exact ⟨n, List.mem_singleton.mp hc⟩
    · rcases List.mem_append.mp hc with hc | hc
      · exact ih (n / 16) (by omega) c hc
      · exact ⟨n % 16, List.mem_singleton.mp hc⟩

/-- A quoted character is taken inside of quotes. -/
theorem takenQuoted_quoteChar (c : Char) : TakenQuoted (Text.quoteChar c) := by
  rcases quoteChar_cases c with ⟨d, hd⟩ | ⟨hquote, hslash, hself⟩ | hcode
  · rw [hd]
    exact takenQuoted_escape d
  · rw [hself]
    exact takenQuoted_of_ne (by simp [hquote, hslash])
  · rw [hcode]
    refine (takenQuoted_escape 'u').append (takenQuoted_of_ne fun d hd => ?_)
    simp only [List.mem_append, List.mem_singleton] at hd
    rcases hd with (rfl | hd) | rfl
    · decide
    · obtain ⟨digit, rfl⟩ := exists_digitChar_of_mem_hexDigits d hd
      exact ⟨Nat.digitChar_ne '"' (by decide), Nat.digitChar_ne '\\' (by decide)⟩
    · decide

/-- A quoted text is taken with its quotes. -/
theorem taken_quoteChars (cs : List Char) : Taken 0 (Text.quoteChars cs) := by
  intro done current depth _
  have hcontent : TakenQuoted (cs.flatMap Text.quoteChar) := by
    induction cs with
    | nil => exact takenQuoted_of_ne nofun
    | cons c cs ih => exact (takenQuoted_quoteChar c).append ih
  have hopen : ValueScan.step { done, current, depth } '"' =
      { done, current := current ++ ['"'], depth, quoted := true } := by
    simp [ValueScan.step]
  have hclose (taken : List Char) :
      ValueScan.step { done, current := taken, depth, quoted := true } '"' =
        { done, current := taken ++ ['"'], depth } := by
    simp [ValueScan.step]
  rw [Text.quoteChars, List.cons_append, List.foldl_cons, hopen, List.foldl_append, hcontent,
    List.foldl_cons, List.foldl_nil, hclose]
  simp

/-! ## The text of a value -/

/-- All characters of the text are bare. -/
def IsBareText (text : String) : Prop :=
  ∀ c ∈ text.toList, isBare c = true

instance (text : String) : Decidable (IsBareText text) :=
  inferInstanceAs (Decidable (∀ c ∈ text.toList, isBare c = true))

/-- A text is bare if its characters are. -/
@[simp] theorem isBareText_ofList : IsBareText (String.ofList cs) ↔ ∀ c ∈ cs, isBare c = true := by
  simp [IsBareText]

/-- Two texts in a row are bare exactly if both are. -/
@[simp] theorem isBareText_append {text more : String} :
    IsBareText (text ++ more) ↔ IsBareText text ∧ IsBareText more := by
  simp only [IsBareText, String.toList_append, List.forall_mem_append]

/-- The digits of a number are bare. -/
theorem isBare_of_mem_toDigits {n : Nat} {c : Char} (hc : c ∈ Nat.toDigits 10 n) :
    isBare c = true := by
  simp [isBare, Char.isAlphanum, Grammar.isDigit_toDigits c hc]

/-- A printed integer is bare. -/
theorem isBareText_int (n : Int) : IsBareText (toString n) := by
  have hnat (n : Nat) : IsBareText (String.ofList (Nat.toDigits 10 n)) :=
    isBareText_ofList.mpr fun _ hc => isBare_of_mem_toDigits hc
  have hsign : IsBareText "-" := by decide
  cases n with
  | ofNat n => simpa [ToString.toString, Int.repr, Nat.repr] using hnat n
  | negSucc n =>
    simpa [ToString.toString, Int.repr, Nat.repr] using
      isBareText_append.mpr ⟨hsign, hnat (n + 1)⟩

/-- Zeros are bare. -/
theorem isBare_of_mem_zeros {n : Nat} {c : Char} (hc : c ∈ List.replicate n '0') :
    isBare c = true := by
  rw [List.eq_of_mem_replicate hc]
  decide

/-- Digits are laid out with zeros, a dot and an exponent. -/
theorem isBareText_layout {digits : List Char} (h : ∀ c ∈ digits, isBare c = true) (power : Int) :
    IsBareText (Number.standardLayout.digits digits power) := by
  have htake (n : Nat) : ∀ c ∈ digits.take n, isBare c = true :=
    fun c hc => h c (List.mem_of_mem_take hc)
  have hdrop (n : Nat) : ∀ c ∈ digits.drop n, isBare c = true :=
    fun c hc => h c (List.mem_of_mem_drop hc)
  have hfraction (n : Nat) (whole : String) (hwhole : IsBareText whole) :
      IsBareText (if (digits.drop n).isEmpty then whole
        else "." ++ String.ofList (digits.drop n)) := by
    split
    · exact hwhole
    · exact isBareText_append.mpr ⟨by decide, isBareText_ofList.mpr (hdrop n)⟩
  unfold Number.Layout.digits
  split
  · split
    · refine isBareText_append.mpr ⟨by decide, isBareText_ofList.mpr ?_⟩
      exact List.forall_mem_append.mpr ⟨fun _ hc => isBare_of_mem_zeros hc, h⟩
    · refine isBareText_append.mpr ⟨isBareText_ofList.mpr ?_, hfraction _ _ (by decide)⟩
      exact List.forall_mem_append.mpr ⟨htake _, fun _ hc => isBare_of_mem_zeros hc⟩
  · have hexponent : IsBareText Number.standardLayout.exponentMark := by decide
    simp only [isBareText_append, isBareText_ofList]
    exact ⟨⟨⟨htake 1, hfraction 1 "" (by decide)⟩, hexponent⟩, isBareText_int power⟩

/-- A printed floating-point number is bare, whatever it is. -/
theorem isBareText_float (x : Number.Binary64) : IsBareText x.text := by
  unfold Number.Binary64.text Number.Layout.text
  split
  · decide
  · refine isBareText_append.mpr ⟨by split <;> decide, ?_⟩
    split
    · decide
    · split
      · decide
      · exact isBareText_layout (fun _ hc => isBare_of_mem_toDigits hc) _

mutual

/-- By recursion on the value. -/
theorem taken_text (v : Value) : Taken 0 v.text.toList := by
  match v with
  | .string text =>
    rw [Value.text, Text.quote, String.toList_ofList]
    exact taken_quoteChars text.toList
  | .list [] =>
    have hempty : Taken 1 [] := fun _ _ _ _ => by simp
    exact hempty.bracket
  | .list (item :: rest) =>
    have hitems := ((taken_text item).mono (Nat.zero_le 1)).append (taken_textMore rest)
    simpa [Value.text] using hitems.bracket
  | .null => exact taken_of_bare (by decide)
  | .bool b => exact taken_of_bare (by cases b <;> decide)
  | .int n => exact taken_of_bare (isBareText_int n.toInt)
  | .float x => exact taken_of_bare (isBareText_float x)

/-- By recursion on the items. -/
theorem taken_textMore (items : List Value) : Taken 1 (Value.textMore items).toList := by
  match items with
  | [] => exact fun _ _ _ _ => by simp [Value.textMore]
  | item :: rest =>
    have hitem := taken_comma.append ((taken_text item).mono (Nat.zero_le 1))
    simpa [Value.textMore] using hitem.append (taken_textMore rest)

end

/-- A bare text that is not empty has no blanks at its ends. -/
theorem isTrimmed_of_bare {text : String} (hne : text ≠ "") (h : IsBareText text) :
    IsTrimmed text.toList := by
  refine (IsWord.isTrimmed ⟨?_, fun c hc => not_isBlank_of_isBare (h c hc)⟩)
  simpa [← String.toList_eq_nil_iff] using hne

/-- A printed integer is not empty. -/
theorem text_int_ne_empty (n : Int) : toString n ≠ "" := by
  cases n with
  | ofNat n => simp [ToString.toString, Int.repr, Nat.repr, ← String.toList_eq_nil_iff]
  | negSucc n => simp [ToString.toString, Int.repr]

/-- Digits laid out around a decimal point are not empty. -/
theorem layout_ne_empty (digits : List Char) (power : Int) :
    Number.standardLayout.digits digits power ≠ "" := by
  unfold Number.Layout.digits
  split
  · split
    · simp
    · dsimp only
      split <;> simp [Number.standardLayout]
  · simp [Number.standardLayout]

/-- A printed floating-point number is not empty. -/
theorem text_float_ne_empty (x : Number.Binary64) : x.text ≠ "" := by
  unfold Number.Binary64.text Number.Layout.text
  split
  · decide
  · intro hempty
    have hbody := (String.append_eq_empty_iff.mp hempty).2
    split at hbody
    · exact absurd hbody (by decide)
    · split at hbody
      · exact absurd hbody (by decide)
      · exact layout_ne_empty _ _ hbody

/-- A text between a mark and a mark is trimmed. -/
theorem isTrimmed_between {first last : Char} (hfirst : isBlank first = false)
    (hlast : isBlank last = false) (cs : List Char) : IsTrimmed (first :: cs ++ [last]) where
  ne_nil := by simp
  starts := by simpa using hfirst
  ends := by simpa using hlast

/-- A printed value has no blanks at its ends. -/
theorem isTrimmed_text (v : Value) : IsTrimmed v.text.toList := by
  cases v with
  | null => exact isTrimmed_of_bare (by decide) (by decide)
  | bool b => cases b <;> exact isTrimmed_of_bare (by decide) (by decide)
  | int n => exact isTrimmed_of_bare (text_int_ne_empty n.toInt) (isBareText_int n.toInt)
  | float x => exact isTrimmed_of_bare (text_float_ne_empty x) (isBareText_float x)
  | string text =>
    rw [Value.text, Text.quote, String.toList_ofList, Text.quoteChars]
    exact isTrimmed_between (by decide) (by decide) _
  | list items =>
    cases items with
    | nil => exact isTrimmed_between (by decide) (by decide) []
    | cons item rest =>
      have htrimmed :
          IsTrimmed ('[' :: (item.text.toList ++ (Value.textMore rest).toList) ++ [']']) :=
        isTrimmed_between (by decide) (by decide) _
      simpa [Value.text] using htrimmed

/-! ## Values and the gaps between them -/

/-- Values as they are typed, each after its gap. -/
def typed (args : List (String × Value)) : List Char :=
  args.flatMap fun arg => arg.1.toList ++ arg.2.text.toList

/-- The first value is typed at once, the others each after a gap of separators. -/
structure Gapped (args : List (String × Value)) : Prop where
  first : ∀ arg ∈ args.head?, arg.1 = ""
  apart : ∀ arg ∈ args.tail, arg.1 ≠ ""
  separators : ∀ arg ∈ args, ∀ c ∈ arg.1.toList, isSeparator c = true

/-- A value ends without a trace where none was started. -/
theorem endValue_nil (done : List (List Char)) :
    ValueScan.endValue { done, current := [] } = { done } := rfl

/-- A value that was started is one of those found when it ends. -/
theorem endValue_of_ne_nil {current : List Char} (h : current ≠ []) (done : List (List Char)) :
    ValueScan.endValue { done, current } = { done := done ++ [current] } := by
  simp [ValueScan.endValue, h]

/-- A separator outside of quotes and lists ends the value. -/
theorem step_separator {c : Char} (h : isSeparator c = true) (done : List (List Char))
    (current : List Char) :
    ValueScan.step { done, current } c = ValueScan.endValue { done, current } := by
  have hne : c ≠ '"' ∧ c ≠ '[' ∧ c ≠ ']' := by
    refine ⟨?_, ?_, ?_⟩ <;> rintro rfl <;> exact absurd h (by decide)
  simp [ValueScan.step, hne, h]

/-- Between values a gap changes nothing. -/
theorem foldl_gap {gap : List Char} (h : ∀ c ∈ gap, isSeparator c = true)
    (done : List (List Char)) : gap.foldl ValueScan.step { done } = { done } := by
  induction gap with
  | nil => rfl
  | cons c gap ih =>
    rw [List.forall_mem_cons] at h
    rw [List.foldl_cons, step_separator h.1, endValue_nil, ih h.2]

/-- After a value a gap ends it. -/
theorem foldl_gap_of_ne_nil {gap current : List Char} (hgap : gap ≠ []) (hcurrent : current ≠ [])
    (h : ∀ c ∈ gap, isSeparator c = true) (done : List (List Char)) :
    gap.foldl ValueScan.step { done, current } = { done := done ++ [current] } := by
  obtain ⟨c, gap, rfl⟩ := List.exists_cons_of_ne_nil hgap
  rw [List.forall_mem_cons] at h
  rw [List.foldl_cons, step_separator h.1, endValue_of_ne_nil hcurrent, foldl_gap h.2]

/-- By induction on the values, each of which ends the one before it. -/
theorem done_foldl_typed (args : List (String × Value)) (hapart : ∀ arg ∈ args, arg.1 ≠ "")
    (hseparators : ∀ arg ∈ args, ∀ c ∈ arg.1.toList, isSeparator c = true)
    (done : List (List Char)) {current : List Char} (hcurrent : current ≠ []) :
    ((typed args).foldl ValueScan.step { done, current }).endValue.done =
      done ++ current :: args.map (·.2.text.toList) := by
  induction args generalizing done current with
  | nil =>
    change (ValueScan.endValue { done, current }).done = _
    rw [endValue_of_ne_nil hcurrent]
    rfl
  | cons arg rest ih =>
    rw [List.forall_mem_cons] at hapart hseparators
    have hgap : arg.1.toList ≠ [] := by simpa using hapart.1
    rw [typed, List.flatMap_cons, ← typed, List.foldl_append, List.foldl_append,
      foldl_gap_of_ne_nil hgap hcurrent hseparators.1, taken_text arg.2 _ _ _ (Nat.le_refl 0),
      List.nil_append, ih hapart.2 hseparators.2 _ (isTrimmed_text arg.2).ne_nil]
    simp

/-- Typed values are split where they were typed apart, each printed as it was. -/
theorem splitValues_typed {args : List (String × Value)} (h : Gapped args) :
    splitValues (typed args) = args.map (·.2.text) := by
  cases args with
  | nil => rfl
  | cons arg rest =>
    have hfirst : arg.1 = "" := h.first arg rfl
    have hrest := done_foldl_typed rest h.apart
      (fun other hother => h.separators other (List.mem_cons_of_mem arg hother)) []
      (isTrimmed_text arg.2).ne_nil
    rw [splitValues, typed, List.flatMap_cons, ← typed, hfirst, String.toList_empty,
      List.nil_append, List.foldl_append, taken_text arg.2 _ _ _ (Nat.le_refl 0), List.nil_append,
      hrest]
    simp [Function.comp_def]

/-- The text of values starts with the first value and ends with the last. -/
theorem isTrimmed_typed {args : List (String × Value)} (h : Gapped args) (hne : args ≠ []) :
    IsTrimmed (typed args) := by
  have hstart : typed args ≠ [] ∧ Avoids isBlank (typed args) := by
    obtain ⟨arg, rest, rfl⟩ := List.exists_cons_of_ne_nil hne
    have hfirst : arg.1 = "" := h.first arg rfl
    have htext := isTrimmed_text arg.2
    rw [typed, List.flatMap_cons, hfirst, String.toList_empty, List.nil_append]
    exact ⟨by simp [htext.ne_nil], (Text.avoids_append_of_ne_nil htext.ne_nil).mpr htext.starts⟩
  refine ⟨hstart.1, hstart.2, ?_⟩
  obtain rfl | ⟨before, arg, rfl⟩ := List.eq_nil_or_concat args
  · exact absurd rfl hne
  · have htext := isTrimmed_text arg.2
    have hreverse : arg.2.text.toList.reverse ≠ [] := by simpa using htext.ne_nil
    simp only [typed, List.concat_eq_append, List.flatMap_append, List.flatMap_singleton,
      List.reverse_append, List.append_assoc]
    exact (Text.avoids_append_of_ne_nil hreverse).mpr htext.ends

/-! ## The command -/

/-- To skip a word more is to skip the first one and then the others. -/
theorem afterWords_append {word : List Char} (hword : IsWord word)
    (hrest : Avoids (!isBlank ·) cs) (n : Nat) :
    afterWords (n + 1) (word ++ cs) = afterWords n cs := by
  rw [afterWords, hword.isTrimmed.trimStart_append,
    dropWhile_append_of_avoids (fun c hc => by simp [hword.2 c hc]) hrest]

/-- A space in front is no word. -/
theorem afterWords_space (n : Nat) (cs : List Char) :
    afterWords n (' ' :: cs) = afterWords n cs := by
  have hstart : Text.trimStart (' ' :: cs) = Text.trimStart cs := rfl
  cases n with
  | zero => rw [afterWords, afterWords, Text.trim, Text.trim, hstart]
  | succ n => rw [afterWords, afterWords, hstart]

/-- What follows the class when the line has been trimmed: nothing, or the values after a blank. -/
def restOf (args : List (String × Value)) : List Char :=
  Text.trimEnd (' ' :: typed args)

/-- What follows the class starts with a blank, if with anything, and is the typed values without
it. -/
theorem restOf_spec {args : List (String × Value)} (h : Gapped args) :
    Avoids (!isBlank ·) (restOf args) ∧ afterWords 0 (restOf args) = typed args := by
  by_cases hnone : args = []
  · subst hnone
    exact ⟨nofun, rfl⟩
  · have htyped := isTrimmed_typed h hnone
    have hends : Text.trimEnd (typed args) = typed args := by
      simpa [Text.trimEnd] using htyped.trimEnd_append []
    have hne : (typed args).reverse ≠ [] := by simpa using htyped.ne_nil
    have hrest : restOf args = ' ' :: typed args := by
      have hlast : Avoids isBlank ((typed args).reverse ++ [' ']) :=
        (Text.avoids_append_of_ne_nil hne).mpr htyped.ends
      simp [restOf, Text.trimEnd, hlast.dropWhile_eq_self]
    have hstarts : Text.trimStart (typed args) = typed args := htyped.starts.dropWhile_eq_self
    rw [hrest]
    refine ⟨by simpa using by decide, ?_⟩
    rw [afterWords_space, afterWords, Text.trim, hstarts, hends]

/-- A line of three words and values, of which the blanks at the end are trimmed. -/
theorem parseCommand_words {name var className : List Char} (hname : IsWord name)
    (hvar : IsWord var) (hclass : IsWord className) {args : List (String × Value)}
    (hargs : Gapped args) {line : String}
    (hline : line.toList =
      '.' :: (name ++ ' ' :: (var ++ ' ' :: (className ++ ' ' :: typed args)))) :
    ∃ text more, parseCommand line = commandOf text (String.ofList name)
        (String.ofList var :: String.ofList className :: more) ∧
      afterWords 3 text = typed args := by
  obtain ⟨hrest, htyped⟩ := restOf_spec hargs
  let front : List Char := '.' :: (name ++ ' ' :: (var ++ ' ' :: className))
  let text : List Char := name ++ ' ' :: (var ++ ' ' :: (className ++ restOf args))
  have hfront : IsTrimmed front := by
    have hne : className.reverse ≠ [] := by simpa using hclass.1
    refine ⟨by simp [front], by simpa [front] using by decide, ?_⟩
    simpa [front] using (Text.avoids_append_of_ne_nil hne).mpr hclass.isTrimmed.ends
  have htrim : Text.trim line.toList = '.' :: text := by
    have hsplit : line.toList = front ++ ' ' :: typed args := by simp [hline, front]
    rw [hsplit, Text.trim, hfront.trimStart_append, hfront.trimEnd_append, ← restOf]
    simp [front, text]
  have hblank (cs : List Char) : Avoids (!isBlank ·) (' ' :: cs) := by simpa using by decide
  have hwords : Text.words text = name :: var :: className :: Text.words (restOf args) := by
    have hspace (cs : List Char) : Text.words (' ' :: cs) = Text.words cs := Text.words_congr rfl
    rw [hname.words_append (hblank _), hspace, hvar.words_append (hblank _), hspace,
      hclass.words_append hrest]
  refine ⟨text, (Text.words (restOf args)).map String.ofList, ?_, ?_⟩
  · simp only [parseCommand, htrim, hwords, List.map_cons]
  · rw [afterWords_append hname (hblank _), afterWords_space, afterWords_append hvar (hblank _),
      afterWords_space, afterWords_append hclass hrest, htyped]

/-- **Constructor arguments survive the command line.** Values that are typed as they print, with
separators between them, after `.new`, a name and a class reach the command as they were typed: in
order, none split, joined, trimmed or dropped. -/
theorem parseCommand_new {var className : String} (hvar : IsWord var.toList)
    (hclass : IsWord className.toList) {args : List (String × Value)} (hargs : Gapped args) :
    parseCommand (".new " ++ var ++ " " ++ className ++ " " ++ String.ofList (typed args)) =
      .ok (.new var className (args.map (·.2.text))) := by
  have hname : IsWord "new".toList := Text.isWord_of_all (by decide) (by decide)
  have hline : (".new " ++ var ++ " " ++ className ++ " " ++ String.ofList (typed args)).toList =
      '.' :: ("new".toList ++ ' ' :: (var.toList ++ ' ' ::
        (className.toList ++ ' ' :: typed args))) := by simp
  obtain ⟨text, more, hcommand, hafter⟩ := parseCommand_words hname hvar hclass hargs hline
  rw [hcommand]
  simp [commandOf, hafter, splitValues_typed hargs]

/-- A number, a text with a quote and a bracket, and a list in a list. -/
def mixedArguments : List (String × Value) :=
  [("", .int 3), (" ,\t", .string "a \"], b"), (",", .list [.list [.null], .bool true])]

/-- Three values of different types, one a quoted text with a quote, a bracket and a comma in it and
one a nested list, reach the command as they were typed. -/
theorem parseCommand_new_mixed :
    IsWord "box".toList ∧ IsWord "Box".toList ∧ Gapped mixedArguments ∧
      parseCommand (".new " ++ "box" ++ " " ++ "Box" ++ " " ++
        String.ofList (typed mixedArguments)) =
          .ok (.new "box" "Box" ["3", "\"a \\\"], b\"", "[[null], true]"]) := by
  have hvar : IsWord "box".toList := Text.isWord_of_all (by decide) (by decide)
  have hclass : IsWord "Box".toList := Text.isWord_of_all (by decide) (by decide)
  have hargs : Gapped mixedArguments := ⟨by decide, by decide, by decide⟩
  have htexts : mixedArguments.map (·.2.text) =
      ["3", "\"a \\\"], b\"", "[[null], true]"] := by decide
  rw [← htexts]
  exact ⟨hvar, hclass, hargs, parseCommand_new hvar hclass hargs⟩

end Shell

end VersionedObjects
