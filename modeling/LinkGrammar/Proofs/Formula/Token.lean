/-
LinkGrammar/Proofs/Formula/Token.lean

Tokens without their places, and how they come apart with the text.

`lexemes (s ++ t) = lexemes s ++ lexemes t` holds wherever no name runs across the
seam between `s` and `t` (`Seam`).  Conversely every cut through the tokens of a text
is a cut through the text at such a seam (`exists_seam_of_lexemes`).
-/
import Mathlib.Data.List.TakeWhile
import LinkGrammar.Formula.Token

namespace LinkGrammar.Formula

/-- The tokens of a text without their places. -/
def lexemes (t : Text) : List Lexeme := (tokens t).map Token.lexeme

/-- Where the text starts does not matter for what the tokens say. -/
theorem map_lexeme_tokensFrom (offset : Nat) (t : Text) :
    (tokensFrom offset t).map Token.lexeme = lexemes t := by
  have key : ∀ o o', (tokensFrom o t).map Token.lexeme = (tokensFrom o' t).map Token.lexeme := by
    intro o
    -- the offset is carried along and never looked at
    fun_induction tokensFrom o t with
    | case1 => intro o'; rw [tokensFrom]
    | case2 o c rest h ih => intro o'; rw [tokensFrom, if_pos h]; exact ih _
    | case3 o c rest h lexeme hc ih =>
      intro o'
      rw [tokensFrom, if_neg h, hc]
      exact congrArg (lexeme :: ·) (ih _)
    | case4 o c rest h hc run ih =>
      intro o'
      rw [tokensFrom, if_neg h, hc]
      exact congrArg (Lexeme.ofRun run :: ·) (ih _)
  exact key _ _

/-! ### Characters of names -/

/-- A character of a name is neither a blank nor a token by itself. -/
theorem isNameChar_iff {c : Char} :
    isNameChar c = true ↔ isBlank c = false ∧ Lexeme.ofChar? c = none := by
  simp [isNameChar]

theorem isNameChar_of_ofChar?_none {c : Char} (hb : ¬isBlank c = true)
    (hc : Lexeme.ofChar? c = none) : isNameChar c = true :=
  isNameChar_iff.2 ⟨by simpa using hb, hc⟩

theorem isNameChar_false_of_isBlank {c : Char} (h : isBlank c = true) : isNameChar c = false := by
  simp [isNameChar, h]

theorem isNameChar_false_of_ofChar? {c : Char} {l : Lexeme} (h : Lexeme.ofChar? c = some l) :
    isNameChar c = false := by
  simp [isNameChar, h]

/-- The text of a token of one character is this character. -/
theorem Lexeme.text_ofChar? {c : Char} {l : Lexeme} (h : ofChar? c = some l) :
    l.text = [c] := by
  unfold ofChar? at h
  repeat' split at h
  all_goals cases h
  all_goals
    subst c
    rfl

/-- The text of a run is the run, be it a name or `or`. -/
theorem Lexeme.text_ofRun (t : Text) : (ofRun t).text = t := by
  unfold ofRun
  split
  · next h => rw [h]; rfl
  · rfl

/-! ### One token at the front -/

@[simp] theorem lexemes_nil : lexemes [] = [] := by
  rw [lexemes, tokens, tokensFrom]; rfl

theorem lexemes_cons_blank {c : Char} (h : isBlank c = true) (t : Text) :
    lexemes (c :: t) = lexemes t := by
  rw [lexemes, tokens, tokensFrom, if_pos h, map_lexeme_tokensFrom]

/-- A character that is a token by itself. -/
theorem lexemes_cons_mark {c : Char} {l : Lexeme} (hb : isBlank c = false)
    (hc : Lexeme.ofChar? c = some l) (t : Text) : lexemes (c :: t) = l :: lexemes t := by
  rw [lexemes, tokens, tokensFrom, if_neg (by simp [hb]), hc]
  exact congrArg (l :: ·) (map_lexeme_tokensFrom _ _)

/-- The longest run of name characters is one token. -/
theorem lexemes_cons_run {c : Char} (h : isNameChar c = true) (t : Text) :
    lexemes (c :: t)
      = .ofRun (c :: t.takeWhile isNameChar) :: lexemes (t.dropWhile isNameChar) := by
  obtain ⟨hb, hc⟩ := isNameChar_iff.1 h
  rw [lexemes, tokens, tokensFrom, if_neg (by simp [hb]), hc]
  exact congrArg (Lexeme.ofRun _ :: ·) (map_lexeme_tokensFrom _ _)

@[simp] theorem lexemes_cons_space (t : Text) : lexemes (' ' :: t) = lexemes t :=
  lexemes_cons_blank (by decide) t

@[simp] theorem lexemes_cons_opener (b : Bracket) (t : Text) :
    lexemes (b.opener :: t) = .opening b :: lexemes t :=
  lexemes_cons_mark (by cases b <;> decide) (by cases b <;> rfl) t

@[simp] theorem lexemes_cons_closer (b : Bracket) (t : Text) :
    lexemes (b.closer :: t) = .closing b :: lexemes t :=
  lexemes_cons_mark (by cases b <;> decide) (by cases b <;> rfl) t

@[simp] theorem lexemes_cons_and (t : Text) : lexemes ('&' :: t) = .and :: lexemes t :=
  lexemes_cons_mark (by decide) rfl t

/-! ### Seams -/

/-- No name runs from the end of `s` into `t`. -/
def Seam (s t : Text) : Prop :=
  ∀ c ∈ s.getLast?, ∀ d ∈ t.head?, ¬(isNameChar c = true ∧ isNameChar d = true)

namespace Seam

@[simp] theorem nil_left (t : Text) : Seam [] t := by simp [Seam]

@[simp] theorem nil_right (s : Text) : Seam s [] := by simp [Seam]

/-- There is a seam before a character that cannot stand in a name. -/
theorem of_head {s : Text} {d : Char} (h : isNameChar d = false) (t : Text) :
    Seam s (d :: t) := by
  intro c _ e he
  simp at he
  simp [← he, h]

/-- There is one behind such a character too. -/
theorem of_last {c : Char} (h : isNameChar c = false) (s t : Text) : Seam (s ++ [c]) t := by
  intro d hd
  simp at hd
  simp [← hd, h]

/-- Of the text behind a seam only the first character matters. -/
theorem congr_head {s t t' : Text} (h : Seam s t) (e : t'.head? = t.head?) : Seam s t' := by
  intro c hc d hd
  exact h c hc d (e ▸ hd)

/-- Of the text before a seam only the end matters. -/
theorem of_append {s s' t : Text} (h : Seam (s ++ s') t) : Seam s' t := by
  rcases s' with - | ⟨c, s'⟩
  · exact nil_left t
  · intro d hd
    exact h d (by rw [List.getLast?_append, Option.mem_def.1 hd]; rfl)

theorem of_cons {c : Char} {s t : Text} (h : Seam (c :: s) t) : Seam s t :=
  of_append (s := [c]) h

/-- More text before a seam that has some already. -/
theorem append_left {s s' t : Text} (h : Seam s' t) (hne : s' ≠ []) : Seam (s ++ s') t := by
  intro c hc
  rw [List.getLast?_append, List.getLast?_eq_some_getLast hne, Option.some_or] at hc
  exact h c (by rw [List.getLast?_eq_some_getLast hne]; exact hc)

/-- A run of name characters ends where the text does, or before a character of no name. -/
theorem takeWhile_dropWhile (run t : Text) :
    Seam run (t.dropWhile isNameChar) := by
  rcases e : t.dropWhile isNameChar with - | ⟨d, u⟩
  · exact nil_right run
  · have hd := List.head_dropWhile_not isNameChar (l := t) (by simp [e])
    exact of_head (by simpa [e] using hd) u

end Seam

/-- The run of name characters that `c` begins. -/
theorem isNameChar_of_mem_run {c d : Char} {t : Text} (hc : isNameChar c = true)
    (hd : d ∈ c :: t.takeWhile isNameChar) : isNameChar d = true := by
  rcases List.mem_cons.1 hd with rfl | hd
  · exact hc
  · exact List.mem_takeWhile_imp hd

/-- A run that ends at a seam is a token. -/
theorem lexemes_run_append {run t : Text} (hne : run ≠ []) (hrun : ∀ c ∈ run, isNameChar c = true)
    (h : Seam run t) : lexemes (run ++ t) = .ofRun run :: lexemes t := by
  obtain ⟨last, hlast⟩ : ∃ c, c ∈ run.getLast? := ⟨_, List.getLast?_eq_some_getLast hne⟩
  have hstop : t.takeWhile isNameChar = [] ∧ t.dropWhile isNameChar = t := by
    rcases t with - | ⟨d, t⟩
    · exact ⟨rfl, rfl⟩
    · have hd : isNameChar d = false := by
        simpa [hrun last (List.mem_of_getLast? hlast)] using h last hlast d (by simp)
      exact ⟨by simp [hd], by simp [hd]⟩
  rcases run with - | ⟨c, run⟩
  · exact absurd rfl hne
  have hall : ∀ d ∈ run, isNameChar d = true := fun d hd => hrun d (by simp [hd])
  rw [List.cons_append, lexemes_cons_run (hrun c (by simp)),
    List.takeWhile_append_of_pos hall, List.dropWhile_append_of_pos hall, hstop.1, hstop.2,
    List.append_nil]

theorem lexemes_or_append {t : Text} (h : Seam ['o', 'r'] t) :
    lexemes (['o', 'r'] ++ t) = .or :: lexemes t := by
  refine lexemes_run_append (by simp) (fun c hc => ?_) h
  have hc : c = 'o' ∨ c = 'r' := by simpa using hc
  rcases hc with rfl | rfl <;> decide

/-- A text is blank at its front, or a single mark stands there, or a run of name
characters that ends at a seam. -/
theorem front_cases {motive : Text → Prop} (nil : motive [])
    (blank : ∀ c t, isBlank c = true → motive t → motive (c :: t))
    (mark : ∀ c l t, isBlank c = false → Lexeme.ofChar? c = some l → motive t → motive (c :: t))
    (run : ∀ r t, r ≠ [] → (∀ c ∈ r, isNameChar c = true) → Seam r t → motive t →
      motive (r ++ t))
    (t : Text) : motive t := by
  -- the recursion of `tokensFrom` is the one wanted, for whatever offset
  suffices key : ∀ o : Nat, motive t from key 0
  intro o
  fun_induction tokensFrom o t with
  | case1 => exact nil
  | case2 o c t hb ih => exact blank c t hb ih
  | case3 o c t hb l hc ih => exact mark c l t (by simpa using hb) hc ih
  | case4 o c t hb hc r ih =>
    have hsplit : c :: t = r ++ t.dropWhile isNameChar := by
      simp [r]
    rw [hsplit]
    refine run r _ (by simp [r]) ?_ (Seam.takeWhile_dropWhile r t) ih
    exact fun d hd => isNameChar_of_mem_run (isNameChar_of_ofChar?_none hb hc) hd

/-- At a seam the tokens of the two texts come one behind the other. -/
theorem lexemes_append {s t : Text} (h : Seam s t) :
    lexemes (s ++ t) = lexemes s ++ lexemes t := by
  induction s using front_cases with
  | nil => rw [lexemes_nil]; rfl
  | blank c s hb ih =>
    rw [List.cons_append, lexemes_cons_blank hb, lexemes_cons_blank hb, ih h.of_cons]
  | mark c l s hb hc ih =>
    rw [List.cons_append, lexemes_cons_mark hb hc, lexemes_cons_mark hb hc, ih h.of_cons]
    rfl
  | run r s hne hr hseam ih =>
    have hrest : Seam r (s ++ t) := by
      rcases s with - | ⟨d, s⟩
      · rw [List.append_nil] at h; exact h
      · exact hseam.congr_head (by rfl)
    rw [List.append_assoc, lexemes_run_append hne hr hrest, lexemes_run_append hne hr hseam,
      ih h.of_append]
    rfl

/-! ### Blanks -/

/-- Nothing but blanks. -/
def Blanks (t : Text) : Prop := ∀ c ∈ t, isBlank c = true

@[simp] theorem blanks_nil : Blanks [] := by simp [Blanks]

theorem blanks_cons {c : Char} {t : Text} : Blanks (c :: t) ↔ isBlank c = true ∧ Blanks t := by
  simp [Blanks]

theorem exists_blanks_append_skipBlanks (t : Text) :
    ∃ bl, Blanks bl ∧ t = bl ++ Text.skipBlanks t :=
  ⟨t.takeWhile isBlank, fun _ hc => List.mem_takeWhile_imp hc,
    (List.takeWhile_append_dropWhile).symm⟩

theorem lexemes_blanks_append {bl : Text} (h : Blanks bl) (t : Text) :
    lexemes (bl ++ t) = lexemes t := by
  induction bl with
  | nil => rfl
  | cons c bl ih =>
    obtain ⟨hc, hbl⟩ := blanks_cons.1 h
    rw [List.cons_append, lexemes_cons_blank hc, ih hbl]

theorem lexemes_append_blanks {bl : Text} (h : Blanks bl) (t : Text) :
    lexemes (t ++ bl) = lexemes t := by
  rcases bl with - | ⟨c, bl⟩
  · rw [List.append_nil]
  · have hseam : Seam t (c :: bl) :=
      Seam.of_head (isNameChar_false_of_isBlank (blanks_cons.1 h).1) bl
    have hnil : lexemes (c :: bl) = [] := by simpa using lexemes_blanks_append h []
    rw [lexemes_append hseam, hnil, List.append_nil]

/-! ### Cutting through tokens -/

/-- A cut through the tokens of a text is a cut through the text. -/
theorem exists_seam_of_lexemes {t : Text} {p s : List Lexeme} (h : lexemes t = p ++ s) :
    ∃ u v, t = u ++ v ∧ Seam u v ∧ lexemes u = p ∧ lexemes v = s := by
  rcases p with - | ⟨a, p⟩
  · exact ⟨[], t, rfl, Seam.nil_left t, lexemes_nil, h⟩
  induction t using front_cases generalizing a p with
  | nil => simp at h
  | blank c t hb ih =>
    rw [lexemes_cons_blank hb] at h
    obtain ⟨u, v, rfl, hseam, hu, hv⟩ := ih a p h
    -- `u` holds the token `a`, so it ends where `c :: u` does
    have hne : u ≠ [] := by
      rintro rfl; simp at hu
    exact ⟨c :: u, v, rfl, hseam.append_left (s := [c]) hne, by rw [lexemes_cons_blank hb, hu], hv⟩
  | mark c l t hb hc ih =>
    rw [lexemes_cons_mark hb hc] at h
    obtain ⟨rfl, ht⟩ := List.cons.inj h
    have hlast : Seam [c] t := Seam.of_last (isNameChar_false_of_ofChar? hc) [] t
    rcases p with - | ⟨b, p⟩
    · exact ⟨[c], t, rfl, hlast, by rw [lexemes_cons_mark hb hc, lexemes_nil], ht⟩
    obtain ⟨u, v, rfl, hseam, hu, hv⟩ := ih b p ht
    have hne : u ≠ [] := by
      rintro rfl; simp at hu
    exact ⟨c :: u, v, rfl, hseam.append_left (s := [c]) hne,
      by rw [lexemes_cons_mark hb hc, hu], hv⟩
  | run r t hne hr hseam ih =>
    rw [lexemes_run_append hne hr hseam] at h
    obtain ⟨rfl, ht⟩ := List.cons.inj h
    have hrun : lexemes r = [.ofRun r] := by
      simpa using lexemes_run_append hne hr (Seam.nil_right r)
    -- a run is one token, so the cut is behind it at the earliest
    rcases p with - | ⟨b, p⟩
    · exact ⟨r, t, rfl, hseam, hrun, ht⟩
    obtain ⟨u, v, rfl, huv, hu, hv⟩ := ih b p ht
    have hune : u ≠ [] := by
      rintro rfl; simp at hu
    have hru : Seam r u := by
      obtain ⟨d, u, rfl⟩ := List.exists_cons_of_ne_nil hune
      exact hseam.congr_head rfl
    exact ⟨r ++ u, v, by rw [List.append_assoc], huv.append_left hune,
      by rw [lexemes_append hru, hrun, hu]; rfl, hv⟩

/-- Where the first token stands. -/
theorem exists_of_lexemes_cons {t : Text} {a : Lexeme} {q : List Lexeme}
    (h : lexemes t = a :: q) :
    ∃ bl v, t = bl ++ (a.text ++ v) ∧ Blanks bl ∧ Seam a.text v ∧ lexemes v = q := by
  induction t using front_cases with
  | nil => simp at h
  | blank c t hb ih =>
    rw [lexemes_cons_blank hb] at h
    obtain ⟨bl, v, rfl, hbl, hseam, hv⟩ := ih h
    exact ⟨c :: bl, v, rfl, blanks_cons.2 ⟨hb, hbl⟩, hseam, hv⟩
  | mark c l t hb hc ih =>
    rw [lexemes_cons_mark hb hc] at h
    obtain ⟨rfl, ht⟩ := List.cons.inj h
    have htext : l.text = [c] := Lexeme.text_ofChar? hc
    refine ⟨[], t, by rw [htext]; rfl, blanks_nil, ?_, ht⟩
    rw [htext]
    exact Seam.of_last (isNameChar_false_of_ofChar? hc) [] t
  | run r t hne hr hseam ih =>
    rw [lexemes_run_append hne hr hseam] at h
    obtain ⟨rfl, ht⟩ := List.cons.inj h
    have htext : (Lexeme.ofRun r).text = r := Lexeme.text_ofRun r
    exact ⟨[], t, by rw [htext]; rfl, blanks_nil, by rw [htext]; exact hseam, ht⟩

/-- Where any token stands. -/
theorem exists_of_lexemes_append_cons {t : Text} {p q : List Lexeme} {a : Lexeme}
    (h : lexemes t = p ++ a :: q) :
    ∃ u v, t = u ++ (a.text ++ v) ∧ Seam u a.text ∧ Seam a.text v ∧ lexemes u = p ∧
      lexemes v = q := by
  obtain ⟨u, w, rfl, huw, hu, hw⟩ := exists_seam_of_lexemes h
  obtain ⟨bl, v, rfl, hbl, hseam, hv⟩ := exists_of_lexemes_cons hw
  refine ⟨u ++ bl, v, by rw [List.append_assoc], ?_, hseam, by rw [lexemes_append_blanks hbl, hu],
    hv⟩
  rcases e : a.text with - | ⟨c, r⟩
  · exact Seam.nil_right _
  -- if blanks come before the token they are a seam, else the cut itself is
  rcases eq_or_ne bl [] with rfl | hne
  · rw [List.append_nil]
    rw [e] at huw
    exact huw.congr_head rfl
  · refine Seam.append_left (fun d hd _ _ => ?_) hne
    simp [isNameChar_false_of_isBlank (hbl d (List.mem_of_getLast? hd))]

/-- A text without tokens has only blanks. -/
theorem blanks_of_lexemes_eq_nil {t : Text} (h : lexemes t = []) : Blanks t := by
  induction t using front_cases with
  | nil => exact blanks_nil
  | blank c t hb ih =>
    rw [lexemes_cons_blank hb] at h
    exact blanks_cons.2 ⟨hb, ih h⟩
  | mark c l t hb hc => rw [lexemes_cons_mark hb hc] at h; cases h
  | run r t hne hr hseam => rw [lexemes_run_append hne hr hseam] at h; cases h

/-- A bracket among the tokens is a character of the text. -/
theorem opener_mem_of_mem_lexemes {t : Text} {b : Bracket} (h : .opening b ∈ lexemes t) :
    b.opener ∈ t := by
  obtain ⟨p, q, hls⟩ := List.mem_iff_append.1 h
  obtain ⟨u, v, rfl, -⟩ := exists_of_lexemes_append_cons hls
  simp [Lexeme.text]

end LinkGrammar.Formula
