import VersionedObjects.Proofs.Grammar.Expressions

/-!
# Statements and properties read back

Statements are printed each on a line of its own. After one comes another or the closing brace,
and neither goes on with the statement before it: no statement starts with a semicolon or with
the sign of an assignment. The parts of a property that may be absent start differently, so each
is read where it is printed and missed where it is not.
-/

namespace VersionedObjects.Declaration

/-- The literals in the statement. -/
def Stmt.literals : Stmt → List Literal
  | .return value | .expr value => value.literals
  | .assign target value => target.literals ++ value.literals
  | .notifyCreated => []

/-- The literals in the accessor. -/
def Accessor.literals (accessor : Accessor) : List Literal :=
  accessor.body.flatMap (·.literals)

/-- The literals in the property. -/
def Property.literals (p : Property) : List Literal :=
  p.initializer.elim [] (·.literals) ++ p.getter.elim [] (·.literals) ++
    p.setter.elim [] (·.literals)

/-! ## The parts of a property that may be absent -/

namespace Property

/-- An initializer as it stands after the type. -/
def initializerText : Option Expr → List Char
  | none => []
  | some value => ([' '] ++ ['=']) ++ ([' '] ++ value.text.toList)

/-- A getter as it stands on a line of its own. -/
def getterText : Option Accessor → List Char
  | none => []
  | some getter => ("\n    ".toList ++ "get".toList) ++ ((['('] ++ [')']) ++
      ([' '] ++ (blockText getter.body "    ").toList))

/-- A setter as it stands on a line of its own. -/
def setterText : Option Accessor → List Char
  | none => []
  | some setter => ("\n    ".toList ++ "set".toList) ++
      ((['('] ++ ((setter.param.getD "value").toList ++ [')'])) ++
        ([' '] ++ (blockText setter.body "    ").toList))

/-- A property is printed as its keyword, its name, its type, its initializer and its accessors. -/
theorem toList_text (p : Property) :
    p.text.toList = (if p.mutable then "var" else "val").toList ++ (([' '] ++ p.name.toList) ++
      (([':'] ++ ([' '] ++ p.type.text.toList)) ++ (initializerText p.initializer ++
        (getterText p.getter ++ setterText p.setter)))) := by
  have hget : ∀ block : String, ("\n    get() " ++ block).toList =
      ("\n    ".toList ++ "get".toList) ++
        ((['('] ++ [')']) ++ ([' '] ++ block.toList)) := fun block => by simp
  have hset : ∀ param block : String, ("\n    set(" ++ param ++ ") " ++ block).toList =
      ("\n    ".toList ++ "set".toList) ++ ((['('] ++ (param.toList ++ [')'])) ++
        ([' '] ++ block.toList)) := fun param block => by simp
  have hinitializer : (p.initializer.elim "" fun value => " = " ++ value.text).toList =
      initializerText p.initializer := by
    cases p.initializer with
    | none => rfl
    | some value => simp [initializerText]
  have hgetter : (p.getter.elim "" fun getter =>
      "\n    get() " ++ blockText getter.body "    ").toList = getterText p.getter := by
    cases p.getter with
    | none => rfl
    | some getter => exact hget _
  have hsetter : (p.setter.elim "" fun setter =>
      "\n    set(" ++ setter.param.getD "value" ++ ") " ++ blockText setter.body "    ").toList =
        setterText p.setter := by
    cases p.setter with
    | none => rfl
    | some setter => exact hset _ _
  simp only [text, String.toList_append, hinitializer, hgetter, hsetter]
  simp

/-- A printed property starts with the letter that both keywords start with. -/
theorem exists_cons_text (p : Property) : ∃ more, p.text.toList = 'v' :: more := by
  rw [toList_text]
  cases p.mutable with
  | true => exact ⟨_, rfl⟩
  | false => exact ⟨_, rfl⟩

end Property

end VersionedObjects.Declaration

namespace VersionedObjects.Grammar

open Declaration
open Framing (isIdentifier)
open Reader

/-! ## Statements -/

/-- The statement has only names and literals that are read back. -/
structure IsPlainStmt (statement : Stmt) : Prop where
  named : statement.WellNamed
  literals : ∀ value ∈ statement.literals, value.isPlain = true

/-- Reads a statement before its semicolon. -/
def bareStmt (depth : Nat) : Reader Stmt :=
  orElse (do
    keyword "return"
    return .return (← commit (expr depth))) <|
  orElse (do
    let target ← filter (expr depth) isAssignable
    symbol '='
    return .assign target (← commit (expr depth)))
    (do return .expr (← expr depth))

/-- The reader of statements skips blanks. -/
theorem lenient_stmt (depth : Nat) : (stmt depth).Lenient :=
  (lenient_spaced _).bind _

/-- No statement is read where nothing starts an expression. -/
theorem misses_stmt {depth : Nat} {s : List Char} (h : Avoids startsExpr (skipBlanks s)) :
    (stmt depth).Misses s := by
  have hexpr : (expr depth).Misses (skipBlanks s) := by
    refine misses_expr ?_
    rwa [skipBlanks_skipBlanks]
  have hreturn : (keyword "return").Misses (skipBlanks s) := by
    refine misses_keyword_of_avoids (c := 'r') (by decide) rfl (h.mono fun c hc => ?_)
    rw [beq_iff_eq.mp hc]
    decide
  refine Misses.bind (p := spaced (bareStmt depth)) ?_ _
  exact misses_orElse_iff.mpr ⟨hreturn.bind _, misses_orElse_iff.mpr
    ⟨(hexpr.filter _).bind _, hexpr.bind _⟩⟩

/-- An expression whose path does not start from the name `return` is not taken for a return. -/
theorem misses_return {e : Expr} (h : IsTypeable e) (hhead : e.head ≠ .name "return")
    {rest : List Char} (hrest : Ends [] rest) :
    (keyword "return").Misses (e.text.toList ++ rest) := by
  obtain ⟨c, more, htext, -, hr⟩ := exists_cons_text h
  by_cases hc : c = 'r'
  · obtain ⟨id, hid⟩ := hr hc
    have hnamed := h.head.named
    rw [hid, Expr.wellNamed, Bool.and_eq_true] at hnamed
    have hpath := endsNumber_path (Expr.wellNamed_head_path h.named).2 hrest
    rw [Expr.toList_text, hid, Expr.text, List.append_assoc]
    refine misses_other_keyword ?_ (isWord_of_isIdentifier hnamed.1) (by decide) hpath.here
    rintro rfl
    exact hhead hid
  · rw [htext]
    exact misses_keyword_of_avoids (c := 'r') (by decide) rfl
      (avoids_cons.mpr (beq_eq_false_iff_ne.mpr hc))

/-- A printed statement starts as an expression does. -/
theorem exists_cons_text_stmt {statement : Stmt} (h : IsPlainStmt statement) :
    ∃ c more, statement.text.toList = c :: more ∧ startsExpr c = true := by
  obtain ⟨hnamed, hliterals⟩ := h
  cases statement with
  | «return» value => exact ⟨'r', _, by simp [Stmt.text]; rfl, by decide⟩
  | assign target value =>
    obtain ⟨c, more, htext, hc, -⟩ := exists_cons_text (IsPlain.typeable
      ⟨hnamed.1, fun value hvalue => hliterals value (List.mem_append_left _ hvalue)⟩)
    exact ⟨c, _, by simp [Stmt.text, htext]; rfl, hc⟩
  | expr value =>
    obtain ⟨c, more, htext, hc, -⟩ := exists_cons_text (IsPlain.typeable ⟨hnamed.1, hliterals⟩)
    exact ⟨c, more, htext, hc⟩
  | notifyCreated => exact hnamed.elim

/-- A printed statement is read back, without its semicolon. -/
theorem reads_bareStmt {depth : Nat} {statement : Stmt} (h : IsPlainStmt statement)
    (hdepth : statement.text.toList.length < depth) :
    (bareStmt depth).Reads statement.text.toList statement (Ends [';', '=']) := by
  obtain ⟨hnamed, hliterals⟩ := h
  have hmono : ∀ rest, Ends [';', '='] rest → Ends [] rest := fun rest hrest => hrest.mono nofun
  cases statement with
  | «return» value =>
    have htext : (Stmt.return value).text.toList =
        "return".toList ++ ([' '] ++ value.text.toList) := by
      simp [Stmt.text]
    rw [htext, List.length_append, List.length_append] at hdepth
    have hvalue := reads_expr depth (IsPlain.typeable ⟨hnamed, hliterals⟩) (by omega)
    rw [htext]
    refine Reads.orElse ((reads_keyword "return").bind (Reads.mono (Reads.map (Reads.commit
      (hvalue.space (lenient_expr depth))) Stmt.return) hmono) ?_) _
    exact fun _ _ => avoids_cons.mpr (by decide)
  | assign target value =>
    obtain ⟨htarget, hhead, hassignable, hvalue⟩ := hnamed
    have htargetPlain := IsPlain.typeable ⟨htarget, fun value hvalue =>
      hliterals value (List.mem_append_left _ hvalue)⟩
    have htext : (Stmt.assign target value).text.toList =
        target.text.toList ++ (([' '] ++ ['=']) ++ ([' '] ++ value.text.toList)) := by
      simp [Stmt.text]
    rw [htext] at hdepth ⊢
    simp only [List.length_append] at hdepth
    have hreadTarget := reads_expr depth htargetPlain (by omega)
    have hreadValue := reads_expr depth (IsPlain.typeable ⟨hvalue, fun value hvalue =>
      hliterals value (List.mem_append_right _ hvalue)⟩) (by omega)
    have hsymbol := (reads_symbol (c := '=') (by decide)).space (lenient_spaced _)
    have hfollow : ∀ rest, Ends [] (([' '] ++ ['=']) ++ ([' '] ++ value.text.toList) ++ rest) :=
      fun _ => .of_blank (by decide) (by decide) (avoids_skipBlanks_cons (by decide) rfl _)
    refine reads_orElse (fun rest _ => ?_) (Reads.orElse ?_ _)
    · rw [List.append_assoc]
      exact (misses_return htargetPlain hhead (hfollow rest)).bind _
    · refine (hreadTarget.filter hassignable).bind (hsymbol.bind
        (((hreadValue.space (lenient_expr depth)).commit.map _).mono hmono)
        fun _ _ => trivial) fun rest _ => hfollow rest
  | expr value =>
    obtain ⟨hvalue, hhead⟩ := hnamed
    have hread := reads_expr depth (IsPlain.typeable ⟨hvalue, hliterals⟩) hdepth
    refine reads_orElse (fun rest hrest => ?_) (reads_orElse (fun rest hrest => ?_) ?_)
    · exact (misses_return (IsPlain.typeable ⟨hvalue, hliterals⟩) hhead
        (hmono rest hrest)).bind _
    · cases hassignable : isAssignable value with
      | true =>
        refine misses_bind (hread.filter hassignable rest (hmono rest hrest)) ?_
        exact (misses_symbol (hrest.avoids (by simp))).bind _
      | false => exact (misses_filter (hread rest (hmono rest hrest)) hassignable).bind _
    · exact (hread.map Stmt.expr).mono hmono
  | notifyCreated => exact hnamed.elim

/-- Statements are read back. -/
theorem reads_stmt {depth : Nat} {statement : Stmt} (h : IsPlainStmt statement)
    (hdepth : statement.text.toList.length < depth) :
    (stmt depth).Reads statement.text.toList statement (Ends [';', '=']) := by
  obtain ⟨c, more, htext, hc⟩ := exists_cons_text_stmt h
  have hsemicolon : (optional (symbol ';')).Reads [] none (Ends [';', '=']) :=
    reads_optional_none fun rest hrest => misses_symbol (hrest.avoids (by simp))
  exact ((reads_bareStmt h hdepth).spaced htext (isSolid_of_startsExpr hc)).bind_nil
    (hsemicolon.map fun _ => statement) fun _ hrest => hrest

/-! ## Blocks -/

/-- Line breaks before each item and after the last are line breaks after each item and before the
first. -/
theorem cons_flatMap_append {α : Type} (c : Char) (as : List α) (f : α → List Char) :
    c :: as.flatMap (fun a => f a ++ [c]) = as.flatMap (fun a => c :: f a) ++ [c] := by
  induction as with
  | nil => rfl
  | cons a as ih => simp [ih]

/-- A block is printed with each statement on a line of its own. -/
theorem toList_blockText (body : List Stmt) (indent : String) :
    (blockText body indent).toList = ['\x7b'] ++
      ((body.flatMap fun s => ('\n' :: indent.toList ++ [' ', ' ']) ++ s.text.toList) ++
        ('\n' :: indent.toList ++ ['\x7d'])) := by
  have htext : (blockText body indent).toList =
      '\x7b' :: (('\n' :: body.flatMap fun s =>
        (indent.toList ++ [' ', ' '] ++ s.text.toList) ++ ['\n']) ++
          (indent.toList ++ ['\x7d'])) := by
    simp [blockText, String.toList_join, List.flatMap_map]
  rw [htext, cons_flatMap_append]
  simp

/-- The reader of blocks skips blanks. -/
theorem lenient_block (depth : Nat) : (block depth).Lenient :=
  (lenient_spaced _).bind _

/-- A block is read back if its statements are. -/
theorem reads_block {depth : Nat} {body : List Stmt} {indent : String}
    (hindent : ∀ c ∈ indent.toList, isSpace c = true) (h : ∀ s ∈ body, IsPlainStmt s)
    (hdepth : (blockText body indent).toList.length < depth) :
    (block depth).Reads (blockText body indent).toList body fun _ => True := by
  have hline : ∀ c ∈ '\n' :: indent.toList, isSpace c = true :=
    List.forall_mem_cons.mpr ⟨by decide, hindent⟩
  have hblanks : ∀ c ∈ '\n' :: indent.toList ++ [' ', ' '], isSpace c = true :=
    List.forall_mem_append.mpr ⟨hline, by decide⟩
  rw [toList_blockText] at hdepth ⊢
  simp only [List.length_append] at hdepth
  have hstmts : Reads (many (stmt depth))
      (body.flatMap fun s => ('\n' :: indent.toList ++ [' ', ' ']) ++ s.text.toList) body
      fun rest => ∃ more, rest = ('\n' :: indent.toList) ++ '\x7d' :: more := by
    refine reads_many (F := Ends [';', '=']) (fun s hs => ?_) (fun _ _ => nofun)
      (fun s hs rest => ?_) ?_
    · have hle := length_le_flatMap hs
        fun s => ('\n' :: indent.toList ++ [' ', ' ']) ++ s.text.toList
      rw [List.length_append] at hle
      exact (reads_stmt (h s hs) (by omega)).blanks (lenient_stmt depth) _ hblanks
    · obtain ⟨c, more, htext, hc⟩ := exists_cons_text_stmt (h s hs)
      have hnext : [';', '='].contains c = false := by
        rw [List.contains_eq_mem, decide_eq_false_iff_not]
        rintro (_ | ⟨_, _ | ⟨_, ⟨⟩⟩⟩) <;> exact absurd hc (by decide)
      have hrest : ('\n' :: indent.toList ++ [' ', ' ']) ++ s.text.toList ++ rest =
          '\n' :: ((indent.toList ++ [' ', ' ']) ++ c :: (more ++ rest)) := by
        simp [htext]
      rw [hrest]
      exact .of_line _ (List.forall_mem_append.mpr ⟨hindent, by decide⟩)
        (isSolid_of_startsExpr hc) hnext _
    · rintro _ ⟨more, rfl⟩
      refine ⟨.of_line _ hindent (by decide) (by decide) more, misses_stmt ?_⟩
      rw [skipBlanks_append hline]
      exact avoids_skipBlanks_cons (by decide) (by decide) more
  refine (reads_symbol (by decide)).bind (hstmts.bind ((((reads_symbol (by decide)).blanks
    (lenient_spaced _) _ hline).commit).map fun _ => body) fun rest _ => ?_) fun _ _ => trivial
  exact ⟨rest, by simp⟩

/-! ## Accessors -/

/-- An indent is of blanks. -/
theorem isSpace_indent : ∀ c ∈ "    ".toList, isSpace c = true := by
  decide

/-- The last part of a text is no longer than the text. -/
theorem length_le_append {α : Type} (before middle after last : List α) :
    last.length ≤ (before ++ (middle ++ (after ++ last))).length := by
  simp only [List.length_append]
  omega

/-- A printed getter is read back, whatever follows. -/
theorem reads_getter (depth : Nat) {accessor : Accessor} (hparam : accessor.param = none)
    (h : ∀ s ∈ accessor.body, IsPlainStmt s)
    (hdepth : (Property.getterText (some accessor)).length < depth) :
    (getter depth).Reads (Property.getterText (some accessor)) accessor fun _ => True := by
  obtain ⟨param, body⟩ := accessor
  obtain rfl : param = none := hparam
  have hdepth := Nat.lt_of_le_of_lt (length_le_append _ _ _ _) hdepth
  have hblock := (reads_block isSpace_indent h hdepth).space (lenient_block depth)
  have hkeyword : (spaced (keyword "get")).Reads ("\n    ".toList ++ "get".toList) ()
      (Avoids isIdentChar) :=
    ((reads_keyword "get").spaced rfl (by decide)).blanks (lenient_spaced _) _ (by decide)
  have hparens : (commit do symbol '('; symbol ')').Reads (['('] ++ [')']) () fun _ => True :=
    ((reads_symbol (by decide)).bind (reads_symbol (by decide)) fun _ _ => trivial).commit
  have hbody : (orElse (do symbol '='; return [.return (← expr depth)]) (block depth)).Reads
      ([' '] ++ (blockText body "    ").toList) body fun _ => True := by
    refine reads_orElse (fun rest _ => Misses.bind (misses_symbol ?_) _) hblock
    rw [List.append_assoc, skipBlanks_append (by decide), toList_blockText]
    exact avoids_skipBlanks_cons (by decide) (by decide) _
  exact hkeyword.bind (hparens.bind ((hbody.commit.within _).map fun body => Accessor.mk none body)
    fun _ _ => trivial) fun _ _ => avoids_cons.mpr (by decide)

/-- A printed setter is read back, whatever follows. -/
theorem reads_setter (depth : Nat) {accessor : Accessor} {param : String}
    (hparam : accessor.param = some param) (hnamed : isIdentifier param = true)
    (h : ∀ s ∈ accessor.body, IsPlainStmt s)
    (hdepth : (Property.setterText (some accessor)).length < depth) :
    (setter depth).Reads (Property.setterText (some accessor)) accessor fun _ => True := by
  obtain ⟨_, body⟩ := accessor
  obtain rfl := hparam
  have hdepth := Nat.lt_of_le_of_lt (length_le_append _ _ _ _) hdepth
  have hblock := (reads_block isSpace_indent h hdepth).space (lenient_block depth)
  have hkeyword : (spaced (keyword "set")).Reads ("\n    ".toList ++ "set".toList) ()
      (Avoids isIdentChar) :=
    ((reads_keyword "set").spaced rfl (by decide)).blanks (lenient_spaced _) _ (by decide)
  have hparens : (commit do
      symbol '('
      let param ← spaced identifier
      symbol ')'
      return param).Reads (['('] ++ (param.toList ++ [')'])) param fun _ => True :=
    ((reads_symbol (by decide)).bind ((reads_spaced_identifier hnamed).bind
      ((reads_symbol (by decide)).map fun _ => param) fun _ _ => avoids_cons.mpr (by decide))
      fun _ _ => trivial).commit
  exact hkeyword.bind (hparens.bind ((hblock.commit.within _).map fun body =>
    Accessor.mk (some param) body) fun _ _ => trivial) fun _ _ => avoids_cons.mpr (by decide)

/-! ## Properties -/

/-- The property has only names and literals that are read back. -/
structure IsPlainProperty (p : Property) : Prop where
  named : p.WellNamed
  literals : ∀ value ∈ p.literals, value.isPlain = true

namespace IsPlainProperty

variable {p : Property}

/-- The initializer of a plain property is plain. -/
theorem initializer (h : IsPlainProperty p) : ∀ value ∈ p.initializer, IsPlain value := by
  intro value hvalue
  refine ⟨h.named.initializer value hvalue, fun l hl => h.literals l ?_⟩
  rw [Option.mem_def] at hvalue
  simp [Property.literals, hvalue, hl]

/-- The statements of a plain property's getter are plain. -/
theorem getter (h : IsPlainProperty p) :
    ∀ getter ∈ p.getter, ∀ s ∈ getter.body, IsPlainStmt s := by
  intro getter hgetter s hs
  refine ⟨(h.named.getter getter hgetter).2 s hs, fun l hl => h.literals l ?_⟩
  rw [Option.mem_def] at hgetter
  simp only [Property.literals, hgetter, Option.elim_some, Accessor.literals, List.mem_append,
    List.mem_flatMap]
  exact .inl (.inr ⟨s, hs, hl⟩)

/-- The statements of a plain property's setter are plain. -/
theorem setter (h : IsPlainProperty p) :
    ∀ setter ∈ p.setter, ∀ s ∈ setter.body, IsPlainStmt s := by
  intro setter hsetter s hs
  refine ⟨(h.named.setter setter hsetter).2 s hs, fun l hl => h.literals l ?_⟩
  rw [Option.mem_def] at hsetter
  simp only [Property.literals, hsetter, Option.elim_some, Accessor.literals, List.mem_append,
    List.mem_flatMap]
  exact .inr ⟨s, hs, hl⟩

end IsPlainProperty

/-- A type ends before a printed initializer, and before what follows if there is none. -/
theorem ends_initializerText {next rest : List Char} (h : Ends next rest)
    (hnext : next.contains '=' = false) (initializer : Option Expr) :
    Ends next (Property.initializerText initializer ++ rest) := by
  cases initializer with
  | none => exact h
  | some value =>
    exact .of_blank (by decide) (by decide) (avoids_skipBlanks_cons (by decide) hnext _)

/-- An expression ends before a printed getter, and before what follows if there is none. -/
theorem ends_getterText {next rest : List Char} (h : Ends next rest)
    (hnext : next.contains 'g' = false) (getter : Option Accessor) :
    Ends next (Property.getterText getter ++ rest) := by
  cases getter with
  | none => exact h
  | some getter => exact .of_line "    ".toList (by decide) (by decide) hnext _

/-- An expression ends before a printed setter, and before what follows if there is none. -/
theorem ends_setterText {next rest : List Char} (h : Ends next rest)
    (hnext : next.contains 's' = false) (setter : Option Accessor) :
    Ends next (Property.setterText setter ++ rest) := by
  cases setter with
  | none => exact h
  | some setter => exact .of_line "    ".toList (by decide) (by decide) hnext _

/-- A printed initializer is read back, and none where there is none. -/
theorem reads_initializer? (depth : Nat) {initializer : Option Expr}
    (h : ∀ value ∈ initializer, IsPlain value)
    (hdepth : (Property.initializerText initializer).length < depth) :
    (optional do symbol '='; commit (expr depth)).Reads (Property.initializerText initializer)
      initializer (Ends ['=']) := by
  cases initializer with
  | none =>
    exact reads_optional_none fun rest hrest => (misses_symbol (hrest.avoids (by simp))).bind _
  | some value =>
    simp only [Property.initializerText, List.length_append] at hdepth
    have hvalue := (reads_expr depth (h value rfl).typeable (by omega)).space (lenient_expr depth)
    exact ((((reads_symbol (by decide)).space (lenient_spaced _)).bind hvalue.commit
      fun _ _ => trivial).optional).mono fun rest hrest => hrest.mono nofun

/-- A keyword is missed where its first letter does not come first after blanks. -/
theorem misses_spaced_keyword {word : String} (hword : IsWord word) {c : Char} {more : List Char}
    (hcons : word.toList = c :: more) {s : List Char} (h : Avoids (· == c) (skipBlanks s)) :
    (spaced (keyword word)).Misses s :=
  misses_keyword_of_avoids hword hcons h

/-- A printed getter is read back, and none where there is none. -/
theorem reads_getter? (depth : Nat) {accessor : Option Accessor}
    (hparam : ∀ getter ∈ accessor, getter.param = none)
    (h : ∀ getter ∈ accessor, ∀ s ∈ getter.body, IsPlainStmt s)
    (hdepth : (Property.getterText accessor).length < depth) :
    (optional (getter depth)).Reads (Property.getterText accessor) accessor (Ends ['g']) := by
  cases accessor with
  | none =>
    refine reads_optional_none fun rest hrest => Misses.bind ?_ _
    exact misses_spaced_keyword (c := 'g') (by decide) rfl (hrest.avoids (by simp))
  | some accessor =>
    exact (reads_getter depth (hparam accessor rfl) (h accessor rfl) hdepth).optional.mono
      fun _ _ => trivial

/-- A printed setter is read back, and none where there is none. -/
theorem reads_setter? (depth : Nat) {accessor : Option Accessor}
    (hparam : ∀ setter ∈ accessor, ∃ param, setter.param = some param ∧ isIdentifier param = true)
    (h : ∀ setter ∈ accessor, ∀ s ∈ setter.body, IsPlainStmt s)
    (hdepth : (Property.setterText accessor).length < depth) :
    (optional (setter depth)).Reads (Property.setterText accessor) accessor (Ends ['s']) := by
  cases accessor with
  | none =>
    refine reads_optional_none fun rest hrest => Misses.bind ?_ _
    exact misses_spaced_keyword (c := 's') (by decide) rfl (hrest.avoids (by simp))
  | some accessor =>
    obtain ⟨param, hsome, hnamed⟩ := hparam accessor rfl
    exact (reads_setter depth hsome hnamed (h accessor rfl) hdepth).optional.mono
      fun _ _ => trivial

/-- The reader of properties skips blanks. -/
theorem lenient_property (depth : Nat) : (property depth).Lenient :=
  (lenient_spaced _).bind _

/-- No property is read where the first letter of its keywords does not stand. -/
theorem misses_property {depth : Nat} {s : List Char} (h : Avoids (· == 'v') (skipBlanks s)) :
    (property depth).Misses s := by
  have hmiss : ∀ word : String, IsWord word → (∃ more, word.toList = 'v' :: more) →
      (keyword word).Misses (skipBlanks s) :=
    fun word hword ⟨_, hcons⟩ => misses_keyword_of_avoids hword hcons h
  refine Misses.bind (misses_orElse_iff.mpr ⟨Misses.bind (hmiss "var" (by decide) ⟨_, rfl⟩) _,
    Misses.bind (hmiss "val" (by decide) ⟨_, rfl⟩) _⟩) _

/-- Properties are read back. -/
theorem reads_property {depth : Nat} {p : Property} (h : IsPlainProperty p)
    (hdepth : p.text.toList.length < depth) :
    (property depth).Reads p.text.toList p (Ends ['<', '=', 'g', 's']) := by
  have hlength := congrArg List.length p.toList_text
  simp only [List.length_append] at hlength
  rw [p.toList_text]
  have hmutable : (spaced (orElse (do keyword "var"; return true)
      (do keyword "val"; return false))).Reads (if p.mutable then "var" else "val").toList p.mutable
      (Avoids isIdentChar) := by
    cases p.mutable with
    | true => exact (((reads_keyword "var").map fun _ => true).orElse _).spaced rfl (by decide)
    | false =>
      refine (reads_orElse (fun rest hrest => ?_) ((reads_keyword "val").map fun _ => false)).spaced
        rfl (by decide)
      exact (misses_other_keyword (by decide : "val" ≠ "var") (by decide) (by decide) hrest).bind _
  have hname := ((reads_spaced_identifier h.named.name).commit.within "property name").space
    ((lenient_spaced _).commit.within _)
  have htype : (commit do symbol ':'; type depth).Reads ([':'] ++ ([' '] ++ p.type.text.toList))
      p.type (Ends ['<']) :=
    ((reads_symbol (by decide)).bind ((reads_type h.named.type (by omega)).space
      (lenient_type depth)) fun _ _ => trivial).commit
  have hinitializer := reads_initializer? depth h.initializer (by omega)
  have hgetter := reads_getter? depth (fun g hg => (h.named.getter g hg).1) h.getter
    (by omega)
  have hsetter := reads_setter? depth (fun s hs => (h.named.setter s hs).1) h.setter
    (by omega)
  -- What may follow a part may follow it also with the parts that come after it.
  have hends : ∀ next : List Char, (∀ c ∈ next, c ∈ ['<', '=', 'g', 's']) →
      next.contains 's' = false → ∀ rest, Ends ['<', '=', 'g', 's'] rest →
        Ends next (Property.setterText p.setter ++ rest) :=
    fun next hmem hnext rest hrest => ends_setterText (hrest.mono hmem) hnext _
  refine hmutable.bind (hname.bind ((htype.within _).bind (hinitializer.bind (hgetter.bind
    ((hsetter.map _).mono fun rest hrest => hrest.mono (by simp)) ?_) ?_) ?_) ?_) ?_
  · exact hends ['g'] (by simp) (by decide)
  · intro rest hrest
    rw [List.append_assoc]
    exact ends_getterText (hends ['='] (by simp) (by decide) rest hrest) (by decide) _
  · intro rest hrest
    rw [List.append_assoc, List.append_assoc]
    exact ends_initializerText (ends_getterText (hends ['<'] (by simp) (by decide) rest hrest)
      (by decide) _) (by decide) _
  · exact fun _ _ => avoids_cons.mpr (by decide)
  · exact fun _ _ => avoids_cons.mpr (by decide)

end VersionedObjects.Grammar
