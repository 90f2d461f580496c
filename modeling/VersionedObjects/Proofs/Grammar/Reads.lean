import VersionedObjects.Grammar.Token

/-!
# Reading a text before any rest

A reader reads a value from a text when it gives the value and leaves the rest, whatever rest of
an admitted kind follows. What may follow is said of the next character, or of the next one after
blanks. Such facts are put together along the reader.
-/

namespace VersionedObjects.Grammar

/-- What a test says of the characters of a text is decided along the text, not by going through
all characters that there are. -/
instance decidableForallMem (test : Char → Bool) (s : List Char) :
    Decidable (∀ c ∈ s, test c = true) :=
  List.decidableBAll _ s

/-! ## What follows -/

/-- The text does not start with such a character. -/
def Avoids (bad : Char → Bool) (s : List Char) : Prop :=
  ∀ c ∈ s.head?, bad c = false

/-- The empty text starts with no character at all. -/
@[simp] theorem avoids_nil (bad : Char → Bool) : Avoids bad [] :=
  nofun

/-- A text is judged by its first character. -/
@[simp] theorem avoids_cons {bad : Char → Bool} {c : Char} {s : List Char} :
    Avoids bad (c :: s) ↔ bad c = false := by
  simp [Avoids]

/-- A text that starts with none of some characters starts with none of fewer. -/
theorem Avoids.mono {bad bad' : Char → Bool} {s : List Char} (h : Avoids bad s)
    (himp : ∀ c, bad' c = true → bad c = true) : Avoids bad' s := by
  intro c hc
  cases hbad : bad' c with
  | false => rfl
  | true => exact absurd (h c hc) (by simp [himp c hbad])

/-- Nothing is taken from a text that does not start with what is taken. -/
theorem Avoids.takeWhile_eq_nil {bad : Char → Bool} {s : List Char} (h : Avoids bad s) :
    s.takeWhile bad = [] := by
  cases s with
  | nil => rfl
  | cons c s => rw [avoids_cons] at h; simp [h]

/-- Nothing is dropped from a text that does not start with what is dropped. -/
theorem Avoids.dropWhile_eq_self {bad : Char → Bool} {s : List Char} (h : Avoids bad s) :
    s.dropWhile bad = s := by
  cases s with
  | nil => rfl
  | cons c s => rw [avoids_cons] at h; simp [h]

/-- What is left after characters were dropped starts with none of them. -/
theorem avoids_dropWhile (test : Char → Bool) (s : List Char) : Avoids test (s.dropWhile test) := by
  intro c hc
  have hnot := List.head?_dropWhile_not test s
  rw [Option.mem_def.mp hc] at hnot
  exact hnot

/-- What is taken while a test holds is a word that passes it, if the rest starts with no such
character. -/
theorem takeWhile_append_of_avoids {test : Char → Bool} {word rest : List Char}
    (hword : ∀ c ∈ word, test c = true) (hrest : Avoids test rest) :
    (word ++ rest).takeWhile test = word := by
  rw [List.takeWhile_append_of_pos hword, hrest.takeWhile_eq_nil, List.append_nil]

/-- A word is dropped up to the rest, if the rest starts with no such character. -/
theorem dropWhile_append_of_avoids {test : Char → Bool} {word rest : List Char}
    (hword : ∀ c ∈ word, test c = true) (hrest : Avoids test rest) :
    (word ++ rest).dropWhile test = rest := by
  rw [List.dropWhile_append_of_pos hword, hrest.dropWhile_eq_self]

/-! ## Blanks -/

/-- A character that neither is blank nor starts a comment. -/
def isSolid (c : Char) : Bool :=
  !isSpace c && c != '/'

/-- A blank is skipped. -/
theorem skipBlanks_cons_of_isSpace {c : Char} (h : isSpace c = true) (s : List Char) :
    skipBlanks (c :: s) = skipBlanks s := by
  have hslash : c ≠ '/' := by rintro rfl; exact absurd h (by decide)
  rw [skipBlanks]
  · rw [if_pos h]
  · rintro rest rfl
    exact fun _ => hslash rfl

/-- A character that neither is blank nor starts a comment ends the skipping. -/
theorem skipBlanks_cons_of_isSolid {c : Char} (h : isSolid c = true) (s : List Char) :
    skipBlanks (c :: s) = c :: s := by
  simp only [isSolid, Bool.and_eq_true, Bool.not_eq_true', bne_iff_ne] at h
  rw [skipBlanks]
  · rw [if_neg (by simp [h.1])]
  · rintro rest rfl
    exact fun _ => h.2 rfl

/-- Any number of blanks are skipped. -/
theorem skipBlanks_append {blanks : List Char} (h : ∀ c ∈ blanks, isSpace c = true)
    (s : List Char) : skipBlanks (blanks ++ s) = skipBlanks s := by
  induction blanks with
  | nil => rfl
  | cons c blanks ih =>
    rw [List.forall_mem_cons] at h
    rw [List.cons_append, skipBlanks_cons_of_isSpace h.1, ih h.2]

/-- After blanks and comments come no more of them. -/
theorem skipBlanks_skipBlanks (s : List Char) : skipBlanks (skipBlanks s) = skipBlanks s := by
  refine skipBlanks.induct
    (fun s => skipBlanks (skipBlanks.skipComment s) = skipBlanks.skipComment s)
    (fun s => skipBlanks (skipBlanks s) = skipBlanks s) ?_ ?_ ?_ ?_ ?_ ?_ ?_ s
  · exact fun rest ih => by rw [skipBlanks.skipComment, ih]
  · exact fun c rest hc ih => by rw [skipBlanks.skipComment.eq_2 _ _ hc, ih]
  · rfl
  · exact fun rest ih => by rw [skipBlanks, ih]
  · exact fun c rest _ hspace ih => by rw [skipBlanks_cons_of_isSpace hspace, ih]
  · intro c rest hcomment hspace
    have hself : skipBlanks (c :: rest) = c :: rest := by
      rw [skipBlanks.eq_2 _ _ hcomment, if_neg hspace]
    rw [hself, hself]
  · rfl

/-! ## Readers on a text and a rest -/

namespace Reader

variable {α β : Type}

/-- The reader gives no value here and leaves the choice to others. -/
def Misses (p : Reader α) (s : List Char) : Prop :=
  ∃ fault, p s = .miss fault

/-- The reader reads the value from the text, whatever rest of a kind follows. -/
def Reads (p : Reader α) (text : List Char) (a : α) (follow : List Char → Prop) : Prop :=
  ∀ rest, follow rest → p (text ++ rest) = .done a rest

/-- What the reader reads after blanks and comments, it reads with them as well. -/
def Lenient (p : Reader α) : Prop :=
  ∀ s a rest, p (skipBlanks s) = .done a rest ↔ p s = .done a rest

variable {p q : Reader α} {t u : List Char} {a : α} {F G : List Char → Prop}

/-! ### Misses -/

/-- A reader that always fails leaves the choice to others. -/
theorem misses_fail (s : List Char) : (fail : Reader α).Misses s :=
  ⟨_, rfl⟩

/-- A sequence misses where its first reader does. -/
theorem Misses.bind {s : List Char} (h : p.Misses s) (f : α → Reader β) : (p >>= f).Misses s := by
  obtain ⟨fault, h⟩ := h
  exact ⟨fault, by rw [bind_apply, h]⟩

/-- A sequence misses where its first reader reads and the next one misses what is left. -/
theorem misses_bind {f : α → Reader β} {s rest : List Char} (hp : p s = .done a rest)
    (hf : (f a).Misses rest) : (p >>= f).Misses s := by
  obtain ⟨fault, hf⟩ := hf
  exact ⟨fault, by rw [bind_apply, hp]; exact hf⟩

/-- A choice misses exactly where both of its readers do. -/
theorem misses_orElse_iff {s : List Char} : (p.orElse q).Misses s ↔ p.Misses s ∧ q.Misses s := by
  unfold Misses Reader.orElse
  cases p s <;> simp

/-- A reader that misses also misses when its values are tested. -/
theorem Misses.filter {s : List Char} (h : p.Misses s) (keep : α → Bool) :
    (p.filter keep).Misses s := by
  obtain ⟨fault, h⟩ := h
  exact ⟨fault, by rw [Reader.filter, h]⟩

/-- A reader misses where its value does not pass the test. -/
theorem misses_filter {keep : α → Bool} {s rest : List Char} (h : p s = .done a rest)
    (ha : keep a = false) : (p.filter keep).Misses s :=
  ⟨.here s, by rw [Reader.filter, h]; simp [ha]⟩

/-- A reader that misses also misses when its values are converted. -/
theorem Misses.filterMap {s : List Char} (h : p.Misses s) (f : α → Option β) :
    (p.filterMap f).Misses s := by
  obtain ⟨fault, h⟩ := h
  exact ⟨fault, by rw [Reader.filterMap, h]⟩

/-- A committed reader never leaves the choice to others. -/
theorem not_misses_commit (p : Reader α) (s : List Char) : ¬ p.commit.Misses s := by
  rintro ⟨fault, h⟩
  unfold Reader.commit at h
  cases hp : p s <;> rw [hp] at h <;> cases h

/-- What misses after something else has been read, or misses at once. -/
theorem misses_bind_cases {f : α → Reader β} {s : List Char} (h : (p >>= f).Misses s) :
    p.Misses s ∨ ∃ a rest, p s = .done a rest ∧ (f a).Misses rest := by
  obtain ⟨fault, h⟩ := h
  rw [bind_apply] at h
  cases hp : p s with
  | done a rest => rw [hp] at h; exact .inr ⟨a, rest, rfl, fault, h⟩
  | miss fault' => exact .inl ⟨fault', hp⟩
  | halt fault' => rw [hp] at h; cases h

/-- What is done with the value of a reader does not make it miss. -/
theorem misses_of_map {f : α → β} {s : List Char} (h : (p >>= fun a => pure (f a)).Misses s) :
    p.Misses s := by
  obtain h | ⟨a, rest, -, fault, hmiss⟩ := misses_bind_cases h
  · exact h
  · cases hmiss

/-! ### What has been read -/

/-- A sequence goes on with the value and the rest of its first reader. -/
theorem bind_of_done {f : α → Reader β} {s rest : List Char} (h : p s = .done a rest) :
    (p >>= f) s = f a rest := by
  rw [bind_apply, h]

/-- A sequence reads what its first reader and then the next one read. -/
theorem bind_eq_done_iff {f : α → Reader β} {s rest : List Char} {b : β} :
    (p >>= f) s = .done b rest ↔ ∃ a mid, p s = .done a mid ∧ f a mid = .done b rest := by
  rw [bind_apply]
  cases p s <;> simp [and_assoc]

/-- What another reader gives, it gives after a miss. -/
theorem orElse_eq_done {s rest : List Char} (h : p.orElse q s = .done a rest) :
    p s = .done a rest ∨ p.Misses s ∧ q s = .done a rest := by
  unfold Reader.orElse at h
  cases hp : p s with
  | done b mid => rw [hp] at h; exact .inl h
  | miss fault => rw [hp] at h; exact .inr ⟨⟨fault, hp⟩, h⟩
  | halt fault => rw [hp] at h; cases h

/-- To commit a reader changes nothing of what it reads. -/
theorem commit_eq_done_iff {s rest : List Char} :
    p.commit s = .done a rest ↔ p s = .done a rest := by
  unfold Reader.commit
  cases p s <;> simp

/-- To name the construct that is read changes nothing of what is read. -/
theorem within_eq_done_iff {construct : String} {s rest : List Char} :
    p.within construct s = .done a rest ↔ p s = .done a rest := by
  unfold Reader.within
  cases p s <;> simp

/-- What a tested reader reads, the reader reads, and it passes the test. -/
theorem filter_eq_done {keep : α → Bool} {s rest : List Char}
    (h : p.filter keep s = .done a rest) : p s = .done a rest ∧ keep a = true := by
  unfold Reader.filter at h
  cases hp : p s with
  | done b mid =>
    rw [hp] at h
    dsimp only at h
    split at h
    · next hkeep => cases h; exact ⟨rfl, hkeep⟩
    · cases h
  | miss fault | halt fault => rw [hp] at h; cases h

/-- An optional reader reads what its reader reads, or misses with it and reads nothing. -/
theorem optional_eq_done {s rest : List Char} {found : Option α}
    (h : p.optional s = .done found rest) :
    (∃ a, found = some a ∧ p s = .done a rest) ∨ p.Misses s ∧ found = none ∧ rest = s := by
  unfold Reader.optional at h
  cases hp : p s with
  | done a mid =>
    rw [hp] at h
    cases h
    exact .inl ⟨a, rfl, rfl⟩
  | miss fault =>
    rw [hp] at h
    cases h
    exact .inr ⟨⟨fault, hp⟩, rfl, rfl⟩
  | halt fault =>
    rw [hp] at h
    cases h

/-- Values are read up to the first miss. -/
theorem many_eq_done {s rest : List Char} {as : List α} (h : many p s = .done as rest) :
    p.Misses s ∧ as = [] ∧ rest = s ∨
      ∃ a mid more, as = a :: more ∧ p s = .done a mid ∧ many p mid = .done more rest := by
  rw [many] at h
  cases hp : p s with
  | miss fault =>
    rw [hp] at h
    cases h
    exact .inl ⟨⟨fault, hp⟩, rfl, rfl⟩
  | halt fault =>
    rw [hp] at h
    cases h
  | done a mid =>
    rw [hp] at h
    dsimp only at h
    split at h
    · cases hmore : many p mid with
      | done more last =>
        rw [hmore] at h
        cases h
        exact .inr ⟨a, mid, more, rfl, rfl, hmore⟩
      | miss fault | halt fault =>
        rw [hmore] at h
        cases h
    · cases h

/-! ### Reads -/

/-- A reader that reads before some rests reads before fewer of them. -/
theorem Reads.mono (h : p.Reads t a F) (hfollow : ∀ rest, G rest → F rest) : p.Reads t a G :=
  fun rest hrest => h rest (hfollow rest hrest)

/-- Two readers in sequence read two texts in a row, if the second text may follow the first. -/
theorem Reads.bind {f : α → Reader β} {b : β} (hp : p.Reads t a F) (hf : (f a).Reads u b G)
    (hfollow : ∀ rest, G rest → F (u ++ rest)) : (p >>= f).Reads (t ++ u) b G := by
  intro rest hrest
  rw [List.append_assoc, bind_apply, hp _ (hfollow rest hrest)]
  exact hf rest hrest

/-- A part of no text may come last. -/
theorem Reads.bind_nil {f : α → Reader β} {b : β} (hp : p.Reads t a F) (hf : (f a).Reads [] b G)
    (hfollow : ∀ rest, G rest → F rest) : (p >>= f).Reads t b G := by
  have hread := hp.bind hf hfollow
  rwa [List.append_nil] at hread

/-- A value is changed after it has been read. -/
theorem Reads.map (hp : p.Reads t a F) (f : α → β) :
    (p >>= fun a => pure (f a)).Reads t (f a) F := by
  intro rest hrest
  rw [bind_apply, hp rest hrest]
  rfl

/-- What is read may be converted into any value that it is known to equal. -/
theorem Reads.map_eq {f : α → β} {b : β} (hp : p.Reads t a F) (hb : f a = b) :
    (p >>= fun a => pure (f a)).Reads t b F :=
  hb ▸ hp.map f

/-- A choice reads what its first reader reads. -/
theorem Reads.orElse (h : p.Reads t a F) (q : Reader α) : (p.orElse q).Reads t a F := by
  intro rest hrest
  rw [Reader.orElse, h rest hrest]

/-- A choice reads what its second reader reads, where the first one misses. -/
theorem reads_orElse (hp : ∀ rest, F rest → p.Misses (t ++ rest)) (hq : q.Reads t a F) :
    (p.orElse q).Reads t a F := by
  intro rest hrest
  obtain ⟨fault, hmiss⟩ := hp rest hrest
  rw [Reader.orElse, hmiss]
  exact hq rest hrest

/-- An optional reader reads what is there. -/
theorem Reads.optional (h : p.Reads t a F) : p.optional.Reads t (some a) F := by
  intro rest hrest
  rw [Reader.optional, h rest hrest]

/-- An optional reader reads nothing where its reader misses. -/
theorem reads_optional_none (h : ∀ rest, F rest → p.Misses rest) : p.optional.Reads [] none F := by
  intro rest hrest
  obtain ⟨fault, hmiss⟩ := h rest hrest
  rw [Reader.optional, List.nil_append, hmiss]

/-- A committed reader reads the same. -/
theorem Reads.commit (h : p.Reads t a F) : p.commit.Reads t a F := by
  intro rest hrest
  rw [Reader.commit, h rest hrest]

/-- A reader reads the same when the construct that it reads is named. -/
theorem Reads.within (construct : String) (h : p.Reads t a F) :
    (p.within construct).Reads t a F := by
  intro rest hrest
  rw [Reader.within, h rest hrest]

/-- A tested reader reads what passes the test. -/
theorem Reads.filter {keep : α → Bool} (h : p.Reads t a F) (ha : keep a = true) :
    (p.filter keep).Reads t a F := by
  intro rest hrest
  rw [Reader.filter, h rest hrest]
  simp [ha]

/-- A converting reader reads what can be converted. -/
theorem Reads.filterMap {f : α → Option β} {b : β} (h : p.Reads t a F) (ha : f a = some b) :
    (p.filterMap f).Reads t b F := by
  intro rest hrest
  rw [Reader.filterMap, h rest hrest]
  simp [ha]

/-! ### Several values -/

/-- A repeated reader reads no values where its reader misses. -/
theorem reads_many_nil (h : ∀ rest, G rest → p.Misses rest) : Reads (many p) [] [] G := by
  intro rest hrest
  obtain ⟨fault, hmiss⟩ := h rest hrest
  rw [List.nil_append, many, hmiss]

/-- A repeated reader reads one value and then those after it, if the first text is not empty. -/
theorem Reads.many_cons {as : List α} (h : p.Reads t a F) (hnonempty : t ≠ [])
    (hmore : Reads (many p) u as G) (hfollow : ∀ rest, G rest → F (u ++ rest)) :
    Reads (many p) (t ++ u) (a :: as) G := by
  intro rest hrest
  have hlt : (u ++ rest).length < (t ++ (u ++ rest)).length := by
    have hpos := List.length_pos_iff.mpr hnonempty
    simp only [List.length_append]
    omega
  rw [List.append_assoc, many, h _ (hfollow rest hrest)]
  simp only [if_pos hlt, hmore rest hrest]

/-- Values are read one after another if each may be followed by the text of another one and by
the rest, which holds no further value. By induction on the values. -/
theorem reads_many {text : α → List Char} {as : List α} (h : ∀ a ∈ as, p.Reads (text a) a F)
    (hnonempty : ∀ a ∈ as, text a ≠ []) (hnext : ∀ a ∈ as, ∀ rest, F (text a ++ rest))
    (hlast : ∀ rest, G rest → F rest ∧ p.Misses rest) : Reads (many p) (as.flatMap text) as G := by
  induction as with
  | nil => exact reads_many_nil fun rest hrest => (hlast rest hrest).2
  | cons a as ih =>
    rw [List.forall_mem_cons] at h hnonempty hnext
    rw [List.flatMap_cons]
    refine h.1.many_cons hnonempty.1 (ih h.2 hnonempty.2 hnext.2) fun rest hrest => ?_
    cases as with
    | nil => exact (hlast rest hrest).1
    | cons b as =>
      rw [List.flatMap_cons, List.append_assoc]
      exact hnext.2 b (List.mem_cons_self ..) _

/-! ### Blanks before a text -/

/-- A reader that always fails does so with blanks as well. -/
theorem lenient_fail : (fail : Reader α).Lenient :=
  fun _ _ _ => ⟨nofun, nofun⟩

/-- A spaced reader skips the blanks by itself. -/
theorem lenient_spaced (p : Reader α) : (spaced p).Lenient := by
  intro s a rest
  rw [spaced, spaced, skipBlanks_skipBlanks]

/-- A sequence skips blanks if its first reader does. -/
theorem Lenient.bind (h : p.Lenient) (f : α → Reader β) : (p >>= f).Lenient := by
  intro s b rest
  rw [bind_apply, bind_apply]
  cases hskipped : p (skipBlanks s) with
  | done a mid => rw [(h s a mid).mp hskipped]
  | miss fault | halt fault =>
    cases hs : p s with
    | done a mid => rw [(h s a mid).mpr hs] at hskipped; cases hskipped
    | miss fault' | halt fault' => exact ⟨nofun, nofun⟩

/-- A committed reader skips blanks if the reader does. -/
theorem Lenient.commit (h : p.Lenient) : p.commit.Lenient := by
  intro s a rest
  rw [commit_eq_done_iff, commit_eq_done_iff]
  exact h s a rest

/-- A reader skips blanks also when the construct that it reads is named. -/
theorem Lenient.within (construct : String) (h : p.Lenient) : (p.within construct).Lenient := by
  intro s a rest
  rw [within_eq_done_iff, within_eq_done_iff]
  exact h s a rest

/-- Blanks may stand before what a lenient reader reads. -/
theorem Reads.blanks (h : p.Reads t a F) (hp : p.Lenient) (blanks : List Char)
    (hblanks : ∀ c ∈ blanks, isSpace c = true) : p.Reads (blanks ++ t) a F := by
  intro rest hrest
  rw [List.append_assoc, ← hp, skipBlanks_append hblanks, hp]
  exact h rest hrest

/-- A reader that skips blanks reads a text with a space in front. -/
theorem Reads.space (h : p.Reads t a F) (hp : p.Lenient) : p.Reads ([' '] ++ t) a F :=
  h.blanks hp [' '] (by decide)

/-- A reader that skips blanks reads a text that starts with a solid character. -/
theorem Reads.spaced {c : Char} (h : p.Reads t a F) (ht : t = c :: u) (hc : isSolid c = true) :
    (spaced p).Reads t a F := by
  intro rest hrest
  have hself : skipBlanks (t ++ rest) = t ++ rest := by
    rw [ht, List.cons_append, skipBlanks_cons_of_isSolid hc]
  rw [Grammar.spaced, hself]
  exact h rest hrest

end Reader

end VersionedObjects.Grammar
