/-
LinkGrammar/Proofs/Formula/Mending.lean

Damaged formula text that can be mended.

Cutting regions out of the text of a formula leaves operators without operands and
brackets without contents, but some order remains: brackets and `&` keep their distance
(`Spaced`), no two parts meet without an operator between them (`Apart`), and brackets
are nested with one kind of operator on each level (`Evaluates`).  A text with all three
is `Mendable`.

Main statements: dropping an operator next to a bracket, next to its like or at an end,
dropping an empty pair of brackets, and tidying blanks all mend a mendable text (`Mends`):
it stays mendable, and goes on standing for the same (`Mends.mendable`).
-/
import LinkGrammar.Formula.Cleanup
import LinkGrammar.Proofs.Formula.Orderly

namespace LinkGrammar.Formula

/-! ### Order among the characters -/

/-- A part may begin behind this character. -/
def OpensPart (c : Char) : Prop := isBlank c = true ∨ isOpener c = true

/-- A part may end before this character. -/
def ClosesPart (c : Char) : Prop := isBlank c = true ∨ isCloser c = true

/-- Behind a closer or `&` stands a blank or a closer, and before an opener or `&`
stands a blank or an opener. -/
def Spaced (c d : Char) : Prop :=
  (isCloser c = true ∨ c = '&' → ClosesPart d) ∧ (isOpener d = true ∨ d = '&' → OpensPart c)

/-- The openers are those of the three brackets. -/
theorem isOpener_iff {c : Char} : isOpener c = true ↔ ∃ b : Bracket, c = b.opener := by
  simp only [isOpener, Bool.or_eq_true, decide_eq_true_eq]
  constructor
  · rintro ((h | h) | h)
    exacts [⟨.round, h⟩, ⟨.square, h⟩, ⟨.curly, h⟩]
  · rintro ⟨b, rfl⟩
    cases b <;> simp [Bracket.opener]

/-- The closers are those of the three brackets. -/
theorem isCloser_iff {c : Char} : isCloser c = true ↔ ∃ b : Bracket, c = b.closer := by
  simp only [isCloser, Bool.or_eq_true, decide_eq_true_eq]
  constructor
  · rintro ((h | h) | h)
    exacts [⟨.round, h⟩, ⟨.square, h⟩, ⟨.curly, h⟩]
  · rintro ⟨b, rfl⟩
    cases b <;> simp [Bracket.closer]

theorem not_isBlank_opener (b : Bracket) : isBlank b.opener = false := by
  cases b <;> decide

theorem not_isBlank_closer (b : Bracket) : isBlank b.closer = false := by
  cases b <;> decide

theorem not_isNameChar_opener (b : Bracket) : isNameChar b.opener = false := by
  cases b <;> decide

theorem not_isNameChar_closer (b : Bracket) : isNameChar b.closer = false := by
  cases b <;> decide

/-- An opener behind a text is one more token. -/
theorem lexemes_append_opener (s : Text) (b : Bracket) :
    lexemes (s ++ [b.opener]) = lexemes s ++ [.opening b] := by
  rw [lexemes_append (Seam.of_head (not_isNameChar_opener b) []), lexemes_cons_opener, lexemes_nil]

/-- What a part may follow is no character of a name. -/
theorem OpensPart.not_isNameChar {c : Char} (h : OpensPart c) : isNameChar c = false := by
  rcases h with h | h
  · exact isNameChar_false_of_isBlank h
  · obtain ⟨b, rfl⟩ := isOpener_iff.1 h
    exact not_isNameChar_opener b

theorem ClosesPart.not_isNameChar {c : Char} (h : ClosesPart c) : isNameChar c = false := by
  rcases h with h | h
  · exact isNameChar_false_of_isBlank h
  · obtain ⟨b, rfl⟩ := isCloser_iff.1 h
    exact not_isNameChar_closer b

/-- No closer and no `&` is a blank or an opener. -/
theorem OpensPart.not_closes {c : Char} (h : OpensPart c) : ¬(isCloser c = true ∨ c = '&') := by
  rintro (hc | rfl)
  · obtain ⟨b, rfl⟩ := isCloser_iff.1 hc
    revert h
    cases b <;> simp [OpensPart] <;> decide
  · revert h
    simp [OpensPart]; decide

theorem ClosesPart.not_opens {c : Char} (h : ClosesPart c) : ¬(isOpener c = true ∨ c = '&') := by
  rintro (hc | rfl)
  · obtain ⟨b, rfl⟩ := isOpener_iff.1 hc
    revert h
    cases b <;> simp [ClosesPart] <;> decide
  · revert h
    simp [ClosesPart]; decide

/-- Anything may stand behind what a part may follow. -/
theorem Spaced.of_opensPart {c d : Char} (hc : OpensPart c) : Spaced c d :=
  ⟨fun h => absurd h hc.not_closes, fun _ => hc⟩

/-- Anything may stand before what may follow a part. -/
theorem Spaced.of_closesPart {c d : Char} (hd : ClosesPart d) : Spaced c d :=
  ⟨fun _ => hd, fun h => absurd h hd.not_opens⟩

/-- A part may begin behind the text. -/
def EndsOpen (t : Text) : Prop := ∀ c ∈ t.getLast?, OpensPart c

/-- A part may end before the text. -/
def BeginsClosed (t : Text) : Prop := ∀ c ∈ t.head?, ClosesPart c

/-- There is a seam behind a text that ends open. -/
theorem EndsOpen.seam {s : Text} (h : EndsOpen s) (t : Text) : Seam s t := by
  intro c hc d _
  simp [(h c hc).not_isNameChar]

/-- There is a seam before a text that begins closed. -/
theorem BeginsClosed.seam {t : Text} (h : BeginsClosed t) (s : Text) : Seam s t := by
  intro c _ d hd
  simp [(h d hd).not_isNameChar]

/-- Any text may be put behind one that ends open. -/
theorem EndsOpen.spaced {s : Text} (h : EndsOpen s) (t : Text) :
    ∀ c ∈ s.getLast?, ∀ d ∈ t.head?, Spaced c d :=
  fun c hc _ _ => .of_opensPart (h c hc)

/-- Any text may be put before one that begins closed. -/
theorem BeginsClosed.spaced {t : Text} (h : BeginsClosed t) (s : Text) :
    ∀ c ∈ s.getLast?, ∀ d ∈ t.head?, Spaced c d :=
  fun _ _ d hd => .of_closesPart (h d hd)

theorem Blanks.endsOpen_append {bl : Text} (h : Blanks bl) {s : Text}
    (hs : bl = [] → EndsOpen s) : EndsOpen (s ++ bl) := by
  rcases eq_or_ne bl [] with rfl | hne
  · simpa using hs rfl
  · intro c hc
    rw [List.getLast?_append_of_ne_nil _ hne] at hc
    exact .inl (h c (List.mem_of_getLast? hc))

theorem Blanks.beginsClosed_append {bl : Text} (h : Blanks bl) {t : Text}
    (ht : bl = [] → BeginsClosed t) : BeginsClosed (bl ++ t) := by
  rcases bl with - | ⟨c, bl⟩
  · exact ht rfl
  · intro d hd
    exact .inl (h d (by simp_all))

@[simp] theorem endsOpen_nil : EndsOpen [] := by simp [EndsOpen]

@[simp] theorem beginsClosed_nil : BeginsClosed [] := by simp [BeginsClosed]

theorem endsOpen_opener (s : Text) (b : Bracket) : EndsOpen (s ++ [b.opener]) := by
  intro c hc
  simp at hc
  exact .inr (isOpener_iff.2 ⟨b, hc.symm⟩)

theorem beginsClosed_closer (b : Bracket) (t : Text) : BeginsClosed (b.closer :: t) := by
  intro c hc
  simp at hc
  exact .inr (isCloser_iff.2 ⟨b, hc.symm⟩)

/-- What stands before an opener or `&`. -/
theorem endsOpen_of_isChain {s t : Text} {d : Char} (h : (s ++ d :: t).IsChain Spaced)
    (hd : isOpener d = true ∨ d = '&') : EndsOpen s := fun c hc =>
  ((List.isChain_append.1 h).2.2 c hc d rfl).2 hd

/-- What stands behind a closer or `&`. -/
theorem beginsClosed_of_isChain {s t : Text} {c : Char} (h : (s ++ c :: t).IsChain Spaced)
    (hc : isCloser c = true ∨ c = '&') : BeginsClosed t := fun d hd =>
  ((List.isChain_cons.1 (List.isChain_append.1 h).2.1).1 d hd).1 hc

/-! ### Order among the tokens -/

/-- Not the end of a part and the beginning of another. -/
def Apart (a b : Lexeme) : Prop := ¬(a.endsPart = true ∧ b.startsPart = true)

/-- A text that stands for `f` once its operators and brackets are put in order. -/
structure Mendable (t : Text) (f : Option Formula) : Prop where
  spaced : t.IsChain Spaced
  apart : (lexemes t).IsChain Apart
  evaluates : Evaluates (lexemes t) f

/-- Two ends of a chain still fit together when what was between them is gone. -/
theorem isChain_append_of_cut {α : Type} {R : α → α → Prop} {x cut y : List α}
    (h : (x ++ (cut ++ y)).IsChain R) (hxy : ∀ a ∈ x.getLast?, ∀ b ∈ y.head?, R a b) :
    (x ++ y).IsChain R :=
  List.isChain_append.2 ⟨(List.isChain_append.1 h).1,
    (List.isChain_append.1 (List.isChain_append.1 h).2.1).2.1, hxy⟩

/-- No part ends before an opener, so none ends before what comes in the opener's place. -/
theorem isChain_apart_of_cut_opening {p cut q : List Lexeme} {b : Bracket}
    (h : (p ++ ((.opening b :: cut) ++ q)).IsChain Apart) : (p ++ q).IsChain Apart := by
  refine isChain_append_of_cut h fun a ha c _ hac => ?_
  exact (List.isChain_append.1 h).2.2 a ha (.opening b) rfl ⟨hac.1, rfl⟩

/-- The order of `t'` is that of a mendable text, and only operators and empty brackets of
`t` are gone. -/
structure Mends (t t' : Text) : Prop where
  spaced : t'.IsChain Spaced
  apart : (lexemes t').IsChain Apart
  drops : Drops (lexemes t) (lexemes t')

namespace Mends

variable {t t' t'' : Text} {f : Option Formula}

/-- What is mended stands for the same formula. -/
theorem mendable (h : Mends t t') (ht : Mendable t f) : Mendable t' f :=
  ⟨h.spaced, h.apart, h.drops.evaluates ht.evaluates⟩

theorem refl (h : Mendable t f) : Mends t t := ⟨h.spaced, h.apart, .refl⟩

theorem trans (h : Mends t t') (h' : Mends t' t'') : Mends t t'' :=
  ⟨h'.spaced, h'.apart, h.drops.trans h'.drops⟩

end Mends

namespace Mendable

variable {x cut y : Text} {f : Option Formula}

/-- An operator is dropped, with the blanks around it. -/
theorem drop_joint {j : Joint} (h : Mendable (x ++ (cut ++ y)) f)
    (hcut : lexemes (x ++ (cut ++ y)) = lexemes x ++ ([j.lexeme] ++ lexemes y)) (hseam : Seam x y)
    (hspaced : ∀ c ∈ x.getLast?, ∀ d ∈ y.head?, Spaced c d)
    (hapart : ∀ a ∈ (lexemes x).getLast?, ∀ b ∈ (lexemes y).head?, Apart a b) :
    Mends (x ++ (cut ++ y)) (x ++ y) where
  spaced := isChain_append_of_cut h.spaced hspaced
  apart := by
    rw [lexemes_append hseam]
    exact isChain_append_of_cut (hcut ▸ h.apart) hapart
  drops := by
    rw [lexemes_append hseam, hcut]
    exact .joint .refl

/-- A pair of brackets with nothing in it is dropped. -/
theorem drop_empty {b : Bracket} {bl : Text}
    (h : Mendable (x ++ ((b.opener :: bl ++ [b.closer]) ++ y)) f) (hbl : Blanks bl) :
    Mends (x ++ ((b.opener :: bl ++ [b.closer]) ++ y)) (x ++ y) := by
  have hx : EndsOpen x := endsOpen_of_isChain h.spaced (.inl (isOpener_iff.2 ⟨b, rfl⟩))
  have hy : BeginsClosed y := by
    refine beginsClosed_of_isChain (s := x ++ (b.opener :: bl)) ?_ (.inl (isCloser_iff.2 ⟨b, rfl⟩))
    simpa using h.spaced
  have hcut : lexemes (x ++ ((b.opener :: bl ++ [b.closer]) ++ y))
      = lexemes x ++ ([.opening b, .closing b] ++ lexemes y) := by
    rw [lexemes_append (hx.seam _), List.append_assoc, List.cons_append, lexemes_cons_opener,
      lexemes_blanks_append hbl, List.singleton_append, lexemes_cons_closer]
    rfl
  refine ⟨isChain_append_of_cut h.spaced (hx.spaced y), ?_, ?_⟩
  · rw [lexemes_append (hx.seam y)]
    exact isChain_apart_of_cut_opening (hcut ▸ h.apart)
  · rw [lexemes_append (hx.seam y), hcut]
    exact .empty .refl

end Mendable

/-! ### Tidying -/

/-- Trimming takes blanks from both ends. -/
theorem trim_infix (t : Text) :
    ∃ bl bl', Blanks bl ∧ Blanks bl' ∧ t = bl ++ Text.trim t ++ bl' := by
  obtain ⟨bl, hbl, ht⟩ := exists_blanks_append_skipBlanks t
  obtain ⟨bl', hbl', ht'⟩ := exists_blanks_append_skipBlanks (Text.skipBlanks t).reverse
  refine ⟨bl, bl'.reverse, hbl, fun c hc => hbl' c (by simpa using hc), ?_⟩
  have htrim : Text.skipBlanks t = Text.trim t ++ bl'.reverse := by
    have := congrArg List.reverse ht'
    rwa [List.reverse_reverse, List.reverse_append] at this
  rw [List.append_assoc, ← htrim]
  exact ht

theorem lexemes_trim (t : Text) : lexemes (Text.trim t) = lexemes t := by
  obtain ⟨bl, bl', hbl, hbl', ht⟩ := trim_infix t
  conv_rhs => rw [ht, lexemes_append_blanks hbl', lexemes_blanks_append hbl]

/-- Squeezing keeps the first character, up to which blank it is. -/
theorem seam_squeezeAfter {s t : Text} (h : Seam s t) : Seam s (Text.squeezeAfter false t) := by
  rcases t with - | ⟨c, t⟩
  · exact h
  · rw [Text.squeezeAfter]
    split
    · exact Seam.of_head (by decide) _
    · exact h.congr_head rfl

/-- A run of name characters is left as it is. -/
theorem squeezeAfter_run_append {r : Text} (hr : ∀ c ∈ r, isNameChar c = true) (hne : r ≠ [])
    (b : Bool) (t : Text) :
    Text.squeezeAfter b (r ++ t) = r ++ Text.squeezeAfter false t := by
  induction r generalizing b with
  | nil => exact absurd rfl hne
  | cons c r ih =>
    obtain ⟨hc, hr⟩ := List.forall_mem_cons.1 hr
    have hb : isBlank c = false := (isNameChar_iff.1 hc).1
    rw [List.cons_append, Text.squeezeAfter, if_neg (by simp [hb])]
    rcases eq_or_ne r [] with rfl | hne
    · rfl
    · rw [ih hr hne]; rfl

theorem lexemes_squeezeAfter (b : Bool) (t : Text) :
    lexemes (Text.squeezeAfter b t) = lexemes t := by
  induction t using front_cases generalizing b with
  | nil => rfl
  | blank c t hb ih =>
    rw [Text.squeezeAfter, if_pos hb, lexemes_cons_blank hb]
    split
    · exact ih true
    · rw [lexemes_cons_space, ih]
  | mark c l t hb hc ih =>
    rw [Text.squeezeAfter, if_neg (by simp [hb]), lexemes_cons_mark hb hc, lexemes_cons_mark hb hc,
      ih]
  | run r t hne hr hseam ih =>
    rw [squeezeAfter_run_append hr hne, lexemes_run_append hne hr hseam,
      lexemes_run_append hne hr (seam_squeezeAfter hseam), ih]

theorem lexemes_tidy (t : Text) : lexemes (tidy t) = lexemes t := by
  rw [tidy, Text.squeeze, lexemes_squeezeAfter, lexemes_trim]

/-- Squeezing keeps a text spaced. -/
theorem isChain_squeezeAfter {c : Char} {t : Text} (h : (c :: t).IsChain Spaced) :
    ((if isBlank c then ' ' else c) :: Text.squeezeAfter (isBlank c) t).IsChain Spaced := by
  induction t generalizing c with
  | nil => exact List.isChain_singleton _
  | cons d t ih =>
    obtain ⟨hcd, ht⟩ := List.isChain_cons_cons.1 h
    have ht := ih ht
    have hspace : OpensPart ' ' := .inl (by decide)
    rw [Text.squeezeAfter]
    by_cases hd : isBlank d = true
    · rw [if_pos hd] at ht ⊢
      rw [hd] at ht
      split
      · -- a blank behind a blank goes
        next hc => simpa [hc] using ht
      · exact List.isChain_cons_cons.2 ⟨.of_closesPart (.inl (by decide)), ht⟩
    · rw [if_neg hd] at ht ⊢
      rw [Bool.eq_false_iff.2 hd] at ht
      refine List.isChain_cons_cons.2 ⟨?_, ht⟩
      split
      · exact .of_opensPart hspace
      · exact hcd

/-- Tidying keeps a mendable text mendable. -/
theorem Mendable.tidy {t : Text} {f : Option Formula} (h : Mendable t f) :
    Mends t (Formula.tidy t) where
  spaced := by
    obtain ⟨bl, bl', -, -, ht⟩ := trim_infix t
    have htrim : (Text.trim t).IsChain Spaced := h.spaced.infix ⟨bl, bl', ht.symm⟩
    rw [Formula.tidy, Text.squeeze]
    -- at the front a blank counts as one after a character that is none
    rcases e : Text.trim t with - | ⟨c, u⟩
    · exact List.isChain_nil
    · rw [e] at htrim
      have hchain := isChain_squeezeAfter htrim
      rw [Text.squeezeAfter]
      by_cases hc : isBlank c = true
      · rw [if_pos hc, hc] at hchain
        rw [if_pos hc, if_neg Bool.false_ne_true]
        exact hchain
      · rw [if_neg hc, Bool.eq_false_iff.2 hc] at hchain
        rw [if_neg hc]
        exact hchain
  apart := by rw [lexemes_tidy]; exact h.apart
  drops := by rw [lexemes_tidy]; exact .refl

end LinkGrammar.Formula
