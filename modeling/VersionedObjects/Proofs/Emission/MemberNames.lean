import VersionedObjects.Emission.Identifier
import VersionedObjects.Proofs.Grammar.Literals

/-!
# Names of generated members

A name that is an identifier is still one in snake case, where it has no capitals. As the name of
a member it is escaped if it is a word of Rust, except for a few words that are written as they
stand; with a prefix before it, as in the name of a setter, no name is such a word.
-/

namespace VersionedObjects.Emission

open Framing (isIdentifier)
open Grammar (isIdentStart isIdentChar exists_cons_of_isIdentifier isWord_of_isIdentifier
  toNat_of_isAlpha)

/-! ## Words of Rust -/

/-- The words that Rust keeps for itself: keywords, and words reserved for later ones. -/
def rustWords : List String :=
  ["as", "async", "await", "break", "const", "continue", "crate", "dyn", "else", "enum", "extern",
    "false", "fn", "for", "if", "impl", "in", "let", "loop", "match", "mod", "move", "mut", "pub",
    "ref", "return", "self", "Self", "static", "struct", "super", "trait", "true", "type", "unsafe",
    "use", "where", "while", "abstract", "become", "box", "do", "final", "macro", "override",
    "priv", "try", "typeof", "unsized", "virtual", "yield"]

/-- The words that cannot be written raw. -/
def rawlessWords : List String :=
  ["_", "crate", "self", "super", "Self"]

/-- A member may have the name: an identifier that is no word of Rust, or a raw one. -/
def isMemberName (name : String) : Bool :=
  match name.toList with
  | 'r' :: '#' :: raw =>
    isIdentifier (String.ofList raw) && !rawlessWords.contains (String.ofList raw)
  | _ => isIdentifier name && name != "_" && !rustWords.contains name

/-- Names that no member may have and that are not escaped. -/
def unescapedWords : List String :=
  ["_", "abstract", "become", "do", "try"]

/-- Of the words of Rust all are escaped that have no capital, except for a few. -/
theorem mem_rustWords {name : String} :
    name ∈ rustWords →
      name ∈ rawWords ∨ name ∈ pathWords ∨ name = "Self" ∨ name ∈ unescapedWords := by
  have hall : ∀ word ∈ rustWords,
      word ∈ rawWords ∨ word ∈ pathWords ∨ word = "Self" ∨ word ∈ unescapedWords := by decide
  exact hall name

/-! ## Snake case -/

/-- The characters of identifiers in snake case. -/
def isSnakeChar (c : Char) : Bool :=
  c.isLower || c.isDigit || c == '_'

/-- The characters of identifiers are of ASCII. -/
theorem toNat_lt_of_isIdentChar {c : Char} (h : isIdentChar c = true) : c.toNat < 128 := by
  simp only [isIdentChar, Char.isAlphanum, Bool.or_eq_true, beq_iff_eq] at h
  obtain (halpha | hdigit) | rfl := h
  · have hrange := toNat_of_isAlpha halpha
    omega
  · have hle : c.toNat ≤ 57 := (Char.isDigit_iff_toNat.mp hdigit).2
    omega
  · decide

/-- Of the characters of identifiers the ones in upper case are capitals, each of which becomes
one small letter, and the others may stand in snake case. -/
theorem letterCase_of_isIdentChar {c : Char} (h : isIdentChar c = true) :
    (Text.isUpper c = true → ∃ small, Text.toLower c = [small] ∧ small.isLower = true) ∧
      (Text.isUpper c = false → isSnakeChar c = true) := by
  have hascii : ∀ n < 128, isIdentChar (Char.ofNat n) = true →
      (Text.isUpper (Char.ofNat n) = true →
        Text.toLower (Char.ofNat n) = [(Char.ofNat n).toLower] ∧
          (Char.ofNat n).toLower.isLower = true) ∧
      (Text.isUpper (Char.ofNat n) = false → isSnakeChar (Char.ofNat n) = true) := by
    decide +kernel
  have hc := hascii c.toNat (toNat_lt_of_isIdentChar h)
  rw [Char.ofNat_toNat] at hc
  exact ⟨fun hupper => ⟨_, (hc h).1 hupper⟩, (hc h).2⟩

/-- By induction on the characters, whatever stands before them. -/
theorem isSnakeChar_of_mem_snakeFrom {cs : List Char} (h : ∀ c ∈ cs, isIdentChar c = true)
    (afterLower : Bool) : ∀ c ∈ snakeFrom afterLower cs, isSnakeChar c = true := by
  induction cs generalizing afterLower with
  | nil => exact List.forall_mem_nil _
  | cons c rest ih =>
    rw [List.forall_mem_cons] at h
    obtain ⟨hupper, hother⟩ := letterCase_of_isIdentChar h.1
    rw [snakeFrom]
    split
    · next hcase =>
      obtain ⟨small, hsmall, hlower⟩ := hupper hcase
      rw [hsmall, List.forall_mem_append, List.forall_mem_append]
      refine ⟨⟨?_, ?_⟩, ih h.2 _⟩
      · cases afterLower <;> decide
      · simp [isSnakeChar, hlower]
    · next hcase =>
      exact List.forall_mem_cons.mpr ⟨hother (by simpa using hcase), ih h.2 _⟩

/-- A small letter is a letter. -/
theorem isAlpha_of_isLower {c : Char} (h : c.isLower = true) : c.isAlpha = true := by
  change (c.isUpper || c.isLower) = true
  rw [h, Bool.or_true]

/-- The characters of emitted names are those of identifiers. -/
theorem isIdentChar_of_isSnakeChar {c : Char} (h : isSnakeChar c = true) :
    isIdentChar c = true := by
  simp only [isSnakeChar, Bool.or_eq_true] at h
  rcases h with (h | h) | h
  · simp [isIdentChar, Char.isAlphanum, isAlpha_of_isLower h]
  · simp [isIdentChar, Char.isAlphanum, h]
  · simp [isIdentChar, h]

/-- A text with a first character and others that are fit is an identifier. -/
theorem isIdentifier_of_toList {name : String} {c : Char} {rest : List Char}
    (hname : name.toList = c :: rest) (hc : isIdentStart c = true)
    (hrest : ∀ d ∈ rest, isIdentChar d = true) : isIdentifier name = true := by
  rw [isIdentifier, hname]
  exact Bool.and_eq_true_iff.mpr ⟨hc, List.all_eq_true.mpr hrest⟩

/-- In snake case an identifier has no capitals. -/
theorem isSnakeChar_of_mem_snakeCase {name : String} (h : isIdentifier name = true) :
    ∀ c ∈ (snakeCase name).toList, isSnakeChar c = true := by
  rw [snakeCase, String.toList_ofList]
  exact isSnakeChar_of_mem_snakeFrom (isWord_of_isIdentifier h) false

/-- In snake case an identifier starts as it did, up to case. -/
theorem isIdentifier_snakeCase {name : String} (h : isIdentifier name = true) :
    isIdentifier (snakeCase name) = true := by
  obtain ⟨c, rest, hname, hc, hrest⟩ := exists_cons_of_isIdentifier h
  have hlater (afterLower : Bool) : ∀ d ∈ snakeFrom afterLower rest, isIdentChar d = true :=
    fun d hd => isIdentChar_of_isSnakeChar (isSnakeChar_of_mem_snakeFrom hrest afterLower d hd)
  have hsnake : (snakeCase name).toList = snakeFrom false (c :: rest) := by
    rw [snakeCase, String.toList_ofList, hname]
  rw [snakeFrom] at hsnake
  split at hsnake
  · next hcase =>
    obtain ⟨small, hsmall, hlower⟩ :=
      (letterCase_of_isIdentChar (Grammar.isIdentChar_of_isIdentStart hc)).1 hcase
    rw [hsmall] at hsnake
    exact isIdentifier_of_toList hsnake (by simp [isIdentStart, isAlpha_of_isLower hlower])
      (hlater _)
  · exact isIdentifier_of_toList hsnake hc (hlater _)

/-! ## Names of members -/

/-- An identifier may be the name of a member unless it is a word of Rust. -/
theorem isMemberName_of_isIdentifier {name : String} (h : isIdentifier name = true) :
    isMemberName name = true ↔ name ≠ "_" ∧ name ∉ rustWords := by
  obtain ⟨c, rest, hname, -, hrest⟩ := exists_cons_of_isIdentifier h
  have hraw : ∀ raw, name.toList ≠ 'r' :: '#' :: raw := by
    intro raw hsame
    rw [hname] at hsame
    obtain ⟨-, rfl⟩ := List.cons.inj hsame
    exact absurd (hrest '#' List.mem_cons_self) (by decide)
  unfold isMemberName
  split
  · next raw hsame => exact absurd hsame (hraw raw)
  · simp [h]

/-- **Words without an escape.** The name of a getter or field is fit for a member unless its
snake case is one of a few words. -/
theorem isMemberName_identifier_iff {name : String} (h : isIdentifier name = true) :
    isMemberName (identifier name) = true ↔ snakeCase name ∉ unescapedWords := by
  have hpath : ∀ word ∈ pathWords,
      isMemberName (word ++ "_") = true ∧ word ∉ unescapedWords := by decide
  have hraw : ∀ word ∈ rawWords,
      isMemberName ("r#" ++ word) = true ∧ word ∉ unescapedWords := by decide
  unfold identifier
  dsimp only
  split
  · next hmem =>
    obtain ⟨hfit, hfree⟩ := hpath _ (by simpa using hmem)
    exact iff_of_true hfit hfree
  split
  · next hmem =>
    obtain ⟨hfit, hfree⟩ := hraw _ (by simpa using hmem)
    exact iff_of_true hfit hfree
  · next hpathless hrawless =>
    rw [isMemberName_of_isIdentifier (isIdentifier_snakeCase h)]
    constructor
    · rintro ⟨hblank, hword⟩ hmem
      have hunescaped : ∀ word ∈ unescapedWords, word = "_" ∨ word ∈ rustWords := by decide
      exact (hunescaped _ hmem).elim hblank hword
    · intro hfree
      refine ⟨fun hblank => hfree (hblank ▸ by decide), fun hword => ?_⟩
      rcases mem_rustWords hword with hmem | hmem | hself | hmem
      · simp [hmem] at hrawless
      · simp [hmem] at hpathless
      · exact absurd (isSnakeChar_of_mem_snakeCase h 'S' (by rw [hself]; decide)) (by decide)
      · exact hfree hmem

/-- The name of a setter. -/
def setterName (name : String) : String :=
  "set_" ++ snakeCase name

/-- The name of a setter is that of the property after `set_`. -/
theorem toList_setterName (name : String) :
    (setterName name).toList = ['s', 'e', 't', '_'] ++ (snakeCase name).toList := by
  rw [setterName, String.toList_append]
  rfl

/-- No setter has the name of a word of Rust. -/
theorem isMemberName_setterName {name : String} (h : isIdentifier name = true) :
    isMemberName (setterName name) = true := by
  have hname := toList_setterName name
  have hidentifier : isIdentifier (setterName name) = true := by
    refine isIdentifier_of_toList hname (by decide) ?_
    have hstart : ∀ c ∈ ['e', 't', '_'], isIdentChar c = true := by decide
    exact List.forall_mem_append.mpr ⟨hstart, fun c hc =>
      isIdentChar_of_isSnakeChar (isSnakeChar_of_mem_snakeCase h c hc)⟩
  have hwords : ∀ word ∈ "_" :: rustWords, word.toList.take 4 ≠ ['s', 'e', 't', '_'] := by decide
  have hfree : setterName name ∉ "_" :: rustWords := fun hmem =>
    hwords _ hmem (by rw [hname]; rfl)
  rw [isMemberName_of_isIdentifier hidentifier]
  simpa using hfree

/-- Names that differ as getters differ as setters. -/
theorem identifier_eq_of_setterName_eq {name other : String}
    (h : setterName name = setterName other) : identifier name = identifier other := by
  have hsnake : snakeCase name = snakeCase other := by
    rw [← String.toList_inj, toList_setterName, toList_setterName] at h
    exact String.toList_inj.mp (List.append_cancel_left h)
  rw [identifier, identifier, hsnake]

end VersionedObjects.Emission
