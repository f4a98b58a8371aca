/-
LinkGrammar/Proofs/Dictionary/Abbreviation.lean

What a formula with abbreviations means.

A reference is replaced in the text of the formula, before anything is read, by the body of the
abbreviation in parentheses.  If the reference is a connector by itself, the replacement takes one
token out and puts the tokens of a part in.  So the phrase of the expanded text is the phrase of
the formula with the phrase of the body in the place of the connector, whatever stands around it
and whatever the body is.

Main result: the expanded text is read, and it admits the lists of the formula in which each
reference gives way, at every place, to the lists of its body (`language?_expandAbbreviations`).
-/
import LinkGrammar.Proofs.Dictionary.Entries
import LinkGrammar.Proofs.Formula.Substitution

namespace LinkGrammar

namespace Dictionary

open Formula Phrase

/-! ### References -/

/-- What can stand between the angle brackets of a reference. -/
def IsReferenceName (name : Text) : Prop :=
  name ≠ [] ∧ ∀ c ∈ name, c ≠ '<' ∧ c ≠ '>' ∧ isBlank c = false

/-- The reference to the abbreviation with this name. -/
def reference (name : Text) : Text := '<' :: name ++ ['>']

theorem reference_inj {name name' : Text} (h : reference name = reference name') : name = name' :=
  List.append_cancel_right (List.cons.inj h).2

theorem reference_append (name t : Text) :
    reference name ++ t = '<' :: (name ++ '>' :: t) := by
  unfold reference
  simp

/-- The reference between the two texts is a connector by itself, and that of an abbreviation with
a body that can be read. -/
structure Resolves (table : Abbreviations) (before name after : Text) : Prop where
  plain : ∀ c ∈ name, isNameChar c = true
  seam_left : Seam before ['<']
  seam_right : Seam ['>'] after
  defined : ∃ body ∈ table.lookup name, ∃ f, parse body = .ok f

/-- Every reference in the text can be resolved. -/
def Resolvable (table : Abbreviations) (t : Text) : Prop :=
  ∀ before name after, t = before ++ (reference name ++ after) → IsReferenceName name →
    Resolves table before name after

/-- A reference stands for every list that its body admits, any other connector for itself. -/
inductive StandsFor (table : Abbreviations) : Connector → Disjunct → Prop
  | itself {c : Connector} :
    (∀ name, IsReferenceName name → c ≠ reference name) → StandsFor table c [c]
  | body {name body : Text} {f : Option Formula} {d : Disjunct} :
    IsReferenceName name → table.lookup name = some body → parse body = .ok f →
      d ∈ language? f → StandsFor table (reference name) d

variable {table : Abbreviations} {line : Nat}

/-- What follows part of a text is resolvable with it. -/
theorem Resolvable.of_append {s t : Text} (h : Resolvable table (s ++ t)) : Resolvable table t := by
  rintro before name after rfl hname
  have hresolves := h (s ++ before) name after (List.append_assoc _ _ _).symm hname
  exact ⟨hresolves.plain, hresolves.seam_left.of_append, hresolves.seam_right, hresolves.defined⟩

theorem Resolvable.of_cons {c : Char} {t : Text} (h : Resolvable table (c :: t)) :
    Resolvable table t := of_append (s := [c]) h

/-! ### Steps of the expansion -/

theorem reference?_append {name : Text} (h : IsReferenceName name) (t : Text) :
    reference? (name ++ '>' :: t) = some (name, t) := by
  obtain ⟨hne, hname⟩ := h
  have hpart : ∀ c ∈ name, (c ≠ '<' && c ≠ '>' && !isBlank c) = true := by
    intro c hc
    obtain ⟨hopen, hclose, hblank⟩ := hname c hc
    simp [hopen, hclose, hblank]
  obtain ⟨c, name, rfl⟩ := List.exists_cons_of_ne_nil hne
  unfold reference?
  dsimp only
  rw [List.takeWhile_append_of_pos hpart, List.dropWhile_append_of_pos hpart,
    List.takeWhile_cons_of_neg (by simp), List.dropWhile_cons_of_neg (by simp), List.append_nil]
  rfl

/-- A character that opens no reference stays. -/
theorem expandAbbreviations_cons {c : Char} (hc : c ≠ '<') (t : Text) :
    expandAbbreviations table line (c :: t)
      = (expandAbbreviations table line t).map (c :: ·) := by
  rw [expandAbbreviations, if_neg hc]

/-- A reference gives way to its formula in parentheses. -/
theorem expandAbbreviations_reference {name body : Text} (h : IsReferenceName name)
    (hbody : table.lookup name = some body) (t : Text) :
    expandAbbreviations table line (reference name ++ t)
      = (expandAbbreviations table line t).map fun u => '(' :: body ++ ')' :: u := by
  rw [reference_append, expandAbbreviations, if_pos rfl]
  split
  · next name' rest href =>
    rw [reference?_append h] at href
    cases href
    rw [hbody]
  · next hnone =>
    rw [reference?_append h] at hnone
    cases hnone

/-- Text in which no reference begins is taken as it is. -/
theorem expandAbbreviations_append {s t : Text}
    (h : ∀ x y, s = x ++ '<' :: y → reference? (y ++ t) = none) :
    expandAbbreviations table line (s ++ t)
      = (expandAbbreviations table line t).map (s ++ ·) := by
  induction s with
  | nil =>
    rw [List.nil_append]
    cases expandAbbreviations table line t <;> rfl
  | cons c s ih =>
    have hrest := ih fun x y hs => h (c :: x) y (congrArg (c :: ·) hs)
    have hstep : expandAbbreviations table line (c :: (s ++ t))
        = (expandAbbreviations table line (s ++ t)).map (c :: ·) := by
      by_cases hc : c = '<'
      · subst hc
        have hnone : reference? (s ++ t) = none := h [] s rfl
        rw [expandAbbreviations, if_pos rfl]
        split
        · next href =>
          rw [hnone] at href
          cases href
        · rfl
      · exact expandAbbreviations_cons hc _
    rw [List.cons_append, hstep, hrest]
    cases expandAbbreviations table line t <;> rfl

/-- A text that opens with no reference keeps its first character. -/
theorem head?_expandAbbreviations {t u : Text} (h : expandAbbreviations table line t = .ok u)
    (ht : ∀ c ∈ t.head?, c ≠ '<') : u.head? = t.head? := by
  rcases t with - | ⟨c, t⟩
  · rw [expandAbbreviations] at h
    cases h
    rfl
  · rw [expandAbbreviations_cons (ht c rfl)] at h
    obtain ⟨v, -, rfl⟩ := map_eq_ok.1 h
    rfl

/-! ### Deciding whether references resolve -/

instance (s t : Text) : Decidable (Seam s t) :=
  decidable_of_iff
    ((s.getLast?.all fun c => t.head?.all fun d =>
      decide ¬(isNameChar c = true ∧ isNameChar d = true)) = true) <| by
    unfold Seam
    rcases s.getLast? with - | c
    · simp
    rcases t.head? with - | d
    · simp
    · cases hc : isNameChar c <;> simp [hc]

/-- When a reference is resolved, as a check on texts. -/
theorem resolves_iff {before name after : Text} :
    Resolves table before name after ↔
      (∀ c ∈ name, isNameChar c = true) ∧ Seam before ['<'] ∧ Seam ['>'] after ∧
        ∃ body ∈ table.lookup name, (parse body).isOk = true := by
  have hok : ∀ body, (parse body).isOk = true ↔ ∃ f, parse body = .ok f := by
    intro body
    rcases parse body with e | f
    · exact iff_of_false Bool.false_ne_true (by rintro ⟨f, ⟨⟩⟩)
    · exact iff_of_true rfl ⟨f, rfl⟩
  simp only [hok]
  exact ⟨fun h => ⟨h.plain, h.seam_left, h.seam_right, h.defined⟩,
    fun ⟨hplain, hleft, hright, hdefined⟩ => ⟨hplain, hleft, hright, hdefined⟩⟩

instance (table : Abbreviations) (before name after : Text) :
    Decidable (Resolves table before name after) :=
  have : Decidable (∀ c ∈ name, isNameChar c = true) := List.decidableBAll _ name
  have : Decidable (∃ body ∈ table.lookup name, (parse body).isOk = true) :=
    match table.lookup name with
    | none => isFalse (by rintro ⟨body, ⟨⟩, -⟩)
    | some body => decidable_of_iff ((parse body).isOk = true) (by simp)
  decidable_of_iff _ resolves_iff.symm

/-- The reference that begins at a place of the text, and what follows it. -/
def referenceAt? (t : Text) (i : Nat) : Option (Text × Text) :=
  match t.drop i with
  | '<' :: s => reference? s
  | _ => none

/-- Whether a text is resolvable can be checked place by place. -/
theorem resolvable_iff {t : Text} :
    Resolvable table t ↔
      ∀ i < t.length, ∀ x ∈ referenceAt? t i, Resolves table (t.take i) x.1 x.2 := by
  constructor
  · rintro h i - ⟨name, after⟩ hx
    unfold referenceAt? at hx
    split at hx
    · next s hs =>
      obtain ⟨rfl, hname⟩ := eq_append_of_reference? hx
      refine h (t.take i) name after ?_ hname
      rw [reference_append, ← hs, List.take_append_drop]
    · cases hx
  · rintro h before name after rfl hname
    have hlt : before.length < (before ++ (reference name ++ after)).length := by
      rw [List.length_append, reference_append, List.length_cons]
      omega
    have hat : referenceAt? (before ++ (reference name ++ after)) before.length
        = some (name, after) := by
      unfold referenceAt?
      rw [List.drop_left, reference_append]
      exact reference?_append hname after
    have hresolves := h before.length hlt (name, after) hat
    rwa [List.take_left] at hresolves

instance (table : Abbreviations) (t : Text) : Decidable (Resolvable table t) :=
  decidable_of_iff _ resolvable_iff.symm

/-! ### Tokens of the expanded text -/

/-- For each reference that is defined, a phrase that its body is derived from. -/
structure PhrasesOf (table : Abbreviations) (σ : Text → Option Body) : Prop where
  itself : ∀ c, (∀ name, IsReferenceName name → c ≠ reference name) → σ c = none
  body : ∀ {name body : Text} {f : Option Formula}, IsReferenceName name →
    table.lookup name = some body → parse body = .ok f →
      ∃ b, σ (reference name) = some b ∧ b.lexemes = lexemes body ∧ b.formula? = f

/-- There is a phrase for each reference whose body is read as a formula. -/
theorem exists_phrasesOf (table : Abbreviations) : ∃ σ, PhrasesOf table σ := by
  -- a body is read in one way only, so the choice of a phrase for it does not matter
  have hphrase : ∀ c : Text, ∃ o : Option Body,
      ((∀ name, IsReferenceName name → c ≠ reference name) → o = none) ∧
        ∀ name body f, IsReferenceName name → c = reference name →
          table.lookup name = some body → parse body = .ok f →
            ∃ b, o = some b ∧ b.lexemes = lexemes body ∧ b.formula? = f := by
    intro c
    by_cases h : ∃ name body f, IsReferenceName name ∧ c = reference name ∧
        table.lookup name = some body ∧ parse body = .ok f
    · obtain ⟨name, body, f, hname, rfl, hbody, hf⟩ := h
      obtain ⟨b, hb, hformula⟩ := parse_eq_ok_iff_phrase.1 hf
      refine ⟨some b, fun hother => absurd rfl (hother name hname), ?_⟩
      rintro name' body' f' - hsame hbody' hf'
      obtain rfl := reference_inj hsame
      obtain rfl : body = body' := Option.some.inj (hbody.symm.trans hbody')
      obtain rfl : f = f' := Except.ok.inj (hf.symm.trans hf')
      exact ⟨b, rfl, hb, hformula⟩
    · refine ⟨none, fun _ => rfl, ?_⟩
      intro name body f hname hc hbody hf
      exact absurd ⟨name, body, f, hname, hc, hbody, hf⟩ h
  choose σ hitself hbody using hphrase
  exact ⟨σ, hitself, fun hname htable hf => hbody _ _ _ _ hname rfl htable hf⟩

variable {σ : Text → Option Body}

/-- A run of name characters in which a reference begins is a reference. -/
theorem Resolvable.reference?_eq_none {r t x y : Text} (h : Resolvable table (r ++ t))
    (hr : ∀ c ∈ r, isNameChar c = true) (hseam : Seam r t)
    (hother : ∀ name, IsReferenceName name → r ≠ reference name) (hxy : r = x ++ '<' :: y) :
    reference? (y ++ t) = none := by
  rw [Option.eq_none_iff_forall_ne_some]
  rintro ⟨name, rest⟩ href
  obtain ⟨hrest, hname⟩ := eq_append_of_reference? href
  have htext : r ++ t = x ++ (reference name ++ rest) := by
    rw [hxy, reference_append, ← hrest]
    simp
  have hresolves := h x name rest htext hname
  -- nothing of the run stands before the reference
  have hx : x = [] := by
    by_contra hne
    have hlast : x.getLast hne ∈ r := by
      rw [hxy]
      exact List.mem_append_left _ (List.getLast_mem hne)
    exact hresolves.seam_left _ (List.getLast?_eq_some_getLast hne) '<' rfl
      ⟨hr _ hlast, by decide⟩
  subst hx
  -- both are the first token
  have hrun : ∀ c ∈ reference name, isNameChar c = true := by
    intro c hc
    simp only [reference, List.cons_append, List.mem_cons, List.mem_append, List.not_mem_nil,
      or_false] at hc
    rcases hc with rfl | hc | rfl
    · decide
    · exact hresolves.plain c hc
    · decide
  have hrne : r ≠ [] := by
    rw [hxy]
    exact List.cons_ne_nil _ _
  have hend : Seam (reference name) rest :=
    hresolves.seam_right.append_left (s := '<' :: name) (List.cons_ne_nil _ _)
  have htokens := lexemes_run_append hrne hr hseam
  have htokens' := lexemes_run_append (List.cons_ne_nil '<' (name ++ ['>'])) hrun hend
  rw [htext, List.nil_append] at htokens
  have hsame := congrArg Lexeme.text (List.cons.inj (htokens.symm.trans htokens')).1
  rw [Lexeme.text_ofRun, Lexeme.text_ofRun] at hsame
  exact hother name hname hsame

/-- A reference is a name to the formula around it. -/
theorem ofRun_reference (name : Text) : Lexeme.ofRun (reference name) = .name (reference name) := by
  unfold Lexeme.ofRun
  exact if_neg (by simp [reference])

theorem replace_reference {name : Text} {b : Body} (h : σ (reference name) = some b) :
    replace σ (.name (reference name))
      = .opening .round :: (b.lexemes ++ [.closing .round]) := by
  show (Part.inPlaceOf σ (reference name)).lexemes = _
  unfold Part.inPlaceOf
  rw [h]
  rfl

theorem replace_ofRun {r : Text} (h : σ r = none) :
    replace σ (Lexeme.ofRun r) = [Lexeme.ofRun r] := by
  unfold Lexeme.ofRun
  split
  · rfl
  · show (Part.inPlaceOf σ r).lexemes = _
    unfold Part.inPlaceOf
    rw [h]
    rfl

theorem replace_mark {c : Char} {l : Lexeme} (h : Lexeme.ofChar? c = some l) :
    replace σ l = [l] := by
  cases l with
  | name n =>
    unfold Lexeme.ofChar? at h
    repeat' split at h
    all_goals cases h
  | _ => rfl

/-- The text can be expanded, and each reference among its tokens has then given way to the
tokens of its body. -/
def Expands (table : Abbreviations) (σ : Text → Option Body) (line : Nat) (t : Text) : Prop :=
  ∃ u, expandAbbreviations table line t = .ok u ∧ lexemes u = (lexemes t).flatMap (replace σ)

namespace Expands

variable {t : Text}

theorem blank {c : Char} (hb : isBlank c = true) (h : Expands table σ line t) :
    Expands table σ line (c :: t) := by
  obtain ⟨u, hu, htokens⟩ := h
  have hc : c ≠ '<' := by
    rintro rfl
    exact absurd hb (by decide)
  refine ⟨c :: u, ?_, ?_⟩
  · rw [expandAbbreviations_cons hc, hu]
    rfl
  · rw [lexemes_cons_blank hb, lexemes_cons_blank hb, htokens]

theorem mark {c : Char} {l : Lexeme} (hb : isBlank c = false) (hl : Lexeme.ofChar? c = some l)
    (h : Expands table σ line t) : Expands table σ line (c :: t) := by
  obtain ⟨u, hu, htokens⟩ := h
  have hc : c ≠ '<' := by
    rintro rfl
    cases hl
  refine ⟨c :: u, ?_, ?_⟩
  · rw [expandAbbreviations_cons hc, hu]
    rfl
  · rw [lexemes_cons_mark hb hl, lexemes_cons_mark hb hl, htokens, List.flatMap_cons,
      replace_mark hl]
    rfl

/-- A reference gives way to the tokens of its body, in parentheses. -/
theorem of_reference {name body : Text} {b : Body} (hname : IsReferenceName name)
    (hbody : table.lookup name = some body) (hb : σ (reference name) = some b)
    (hlexemes : b.lexemes = lexemes body) (hr : ∀ c ∈ reference name, isNameChar c = true)
    (hseam : Seam (reference name) t) (h : Expands table σ line t) :
    Expands table σ line (reference name ++ t) := by
  obtain ⟨u, hu, htokens⟩ := h
  have hne : reference name ≠ [] := List.cons_ne_nil _ _
  have hclose : Seam body (Bracket.round.closer :: u) := Seam.of_head (by decide) u
  have hgroup : lexemes ('(' :: body ++ ')' :: u)
      = .opening .round :: (lexemes body ++ .closing .round :: lexemes u) := by
    show lexemes (Bracket.round.opener :: (body ++ Bracket.round.closer :: u)) = _
    rw [lexemes_cons_opener, lexemes_append hclose, lexemes_cons_closer]
  refine ⟨'(' :: body ++ ')' :: u, ?_, ?_⟩
  · rw [expandAbbreviations_reference hname hbody, hu]
    rfl
  · rw [hgroup, lexemes_run_append hne hr hseam, ofRun_reference, List.flatMap_cons,
      replace_reference hb, hlexemes, htokens]
    simp

/-- Any other run of name characters stays. -/
theorem run {r : Text} (hne : r ≠ []) (hr : ∀ c ∈ r, isNameChar c = true) (hseam : Seam r t)
    (hσ : σ r = none) (hfree : ∀ x y, r = x ++ '<' :: y → reference? (y ++ t) = none)
    (h : Expands table σ line t) : Expands table σ line (r ++ t) := by
  obtain ⟨u, hu, htokens⟩ := h
  refine ⟨r ++ u, ?_, ?_⟩
  · rw [expandAbbreviations_append fun x y hxy => hfree x y hxy, hu]
    rfl
  · -- what stands behind the run still does not continue it
    have hopen : ∀ c ∈ t.head?, c ≠ '<' := by
      rintro c hc rfl
      have hlast := List.getLast?_eq_some_getLast hne
      exact hseam _ hlast '<' hc ⟨hr _ (List.getLast_mem hne), by decide⟩
    have hseam' : Seam r u := hseam.congr_head (head?_expandAbbreviations hu hopen)
    rw [lexemes_run_append hne hr hseam', lexemes_run_append hne hr hseam, List.flatMap_cons,
      replace_ofRun hσ, htokens]
    rfl

end Expands

/-- **In the expanded text each reference has given way to the tokens of its body.** -/
theorem expands_of_resolvable (hσ : PhrasesOf table σ) (line : Nat) {t : Text}
    (h : Resolvable table t) : Expands table σ line t := by
  induction t using front_cases with
  | nil =>
    refine ⟨[], by rw [expandAbbreviations], ?_⟩
    rw [lexemes_nil]
    rfl
  | blank c t hb ih => exact (ih h.of_cons).blank hb
  | mark c l t hb hl ih => exact (ih h.of_cons).mark hb hl
  | run r t hne hr hseam ih =>
    by_cases href : ∃ name, IsReferenceName name ∧ r = reference name
    · obtain ⟨name, hname, rfl⟩ := href
      obtain ⟨body, hbody, f, hf⟩ := (h [] name t rfl hname).defined
      obtain ⟨b, hb, hlexemes, -⟩ := hσ.body hname hbody hf
      exact (ih h.of_append).of_reference hname hbody hb hlexemes hr hseam
    · have hother : ∀ name, IsReferenceName name → r ≠ reference name :=
        fun name hname hr => href ⟨name, hname, hr⟩
      exact (ih h.of_append).run hne hr hseam (hσ.itself r hother) fun x y hxy =>
        h.reference?_eq_none hr hseam hother hxy

/-! ### The meaning of the expanded text -/

theorem ne_reference_of_isNumber {n : Text} (h : IsNumber n) (name : Text) :
    n ≠ reference name := by
  have hdigit : isDigit '<' = false := by decide
  rintro rfl
  rcases h with ⟨whole, fraction, htext, ⟨hne, hdigits⟩, -⟩ | ⟨u, hu, -⟩
  · obtain ⟨c, whole, rfl⟩ := List.exists_cons_of_ne_nil hne
    obtain rfl : '<' = c := (List.cons.inj htext).1
    rw [hdigits '<' List.mem_cons_self] at hdigit
    cases hdigit
  · exact absurd (List.cons.inj hu).1 (by decide)

/-- The phrase in the place of a name has the lists that the name stands for. -/
theorem PhrasesOf.language_inPlaceOf (hσ : PhrasesOf table σ) {t n : Text}
    (h : Resolvable table t) (hn : .name n ∈ lexemes t) :
    (Part.inPlaceOf σ n).language = {d | StandsFor table n d} := by
  by_cases href : ∃ name, IsReferenceName name ∧ n = reference name
  · obtain ⟨name, hname, rfl⟩ := href
    obtain ⟨p, q, hls⟩ := List.mem_iff_append.1 hn
    obtain ⟨before, after, htext, -⟩ := exists_of_lexemes_append_cons hls
    obtain ⟨body, hbody, f, hf⟩ := (h before name after htext hname).defined
    obtain ⟨b, hb, -, rfl⟩ := hσ.body hname hbody hf
    have hplace : Part.inPlaceOf σ (reference name) = .group .round b := by
      unfold Part.inPlaceOf
      rw [hb]
    rw [hplace]
    show b.language = _
    rw [← b.language?_formula?]
    ext d
    constructor
    · exact fun hd => .body hname hbody hf hd
    · intro hd
      generalize hc : reference name = c at hd
      cases hd with
      | itself hother => exact absurd hc.symm (hother name hname)
      | body hname' hbody' hf' hd =>
        obtain rfl := reference_inj hc
        obtain rfl := Option.some.inj (hbody.symm.trans hbody')
        obtain rfl := Except.ok.inj (hf.symm.trans hf')
        exact hd
  · have hother : ∀ name, IsReferenceName name → n ≠ reference name :=
      fun name hname hn => href ⟨name, hname, hn⟩
    have hplace : Part.inPlaceOf σ n = .name n := by
      unfold Part.inPlaceOf
      rw [hσ.itself n hother]
    rw [hplace]
    ext d
    constructor
    · rintro rfl
      exact .itself hother
    · intro hd
      cases hd with
      | itself => rfl
      | body hname => exact absurd rfl (hother _ hname)

/-- **The meaning of abbreviations.**  Let a text be read as a formula, with its references taken
for connectors, and let each reference be a connector by itself, of an abbreviation with a body
that can be read.  Then expansion succeeds, the expanded text is read, and the lists that it
admits are those of the formula in which every reference gives way, at each place on its own, to
one of the lists of its body; a body that stands for nothing admits the empty list only. -/
theorem language?_expandAbbreviations {t : Text} {f : Option Formula} (hf : parse t = .ok f)
    (h : Resolvable table t) (line : Nat) :
    ∃ u g, expandAbbreviations table line t = .ok u ∧ parse u = .ok g ∧
      language? g = substitute (fun c => {d | StandsFor table c d}) (language? f) := by
  obtain ⟨σ, hσ⟩ := exists_phrasesOf table
  obtain ⟨u, hu, htokens⟩ := expands_of_resolvable hσ line h
  obtain ⟨body, hbody, rfl⟩ := parse_eq_ok_iff_phrase.1 hf
  -- weights are names too, but a number is no reference
  have hnumber : ∀ n, IsNumber n → σ n = none :=
    fun n hn => hσ.itself n fun name _ => ne_reference_of_isNumber hn name
  have hphrase : (body.subst σ).lexemes = lexemes u := by
    rw [body.lexemes_subst hnumber, hbody, htokens]
  refine ⟨u, (body.subst σ).formula?, hu, parse_eq_ok_iff_phrase.2 ⟨_, hphrase, rfl⟩, ?_⟩
  rw [Body.language?_formula?, Body.language?_formula?]
  refine body.language_subst fun n hn => hσ.language_inPlaceOf h ?_
  rwa [← hbody]

/-- Abbreviations of a choice, of nothing, and of what is optional. -/
def threeAbbreviations : Abbreviations :=
  [("m".toList, "A+ or B-".toList), ("n".toList, "()".toList), ("o".toList, "{C+}".toList)]

/-- References next to both operators, in braces and in a cost group with a weight. -/
def abbreviated : Text := "<m> & {<n>} or [<o> & <m>]2".toList

theorem language?_expandAbbreviations_abbreviated :
    parse abbreviated = .ok (some (or [and [leaf "<m>".toList, optional (leaf "<n>".toList)],
        cost (and [leaf "<o>".toList, leaf "<m>".toList])])) ∧
      Resolvable threeAbbreviations abbreviated ∧
      ∃ u g, expandAbbreviations threeAbbreviations 1 abbreviated = .ok u ∧ parse u = .ok g ∧
        language? g = substitute (fun c => {d | StandsFor threeAbbreviations c d})
          (language? (some (or [and [leaf "<m>".toList, optional (leaf "<n>".toList)],
            cost (and [leaf "<o>".toList, leaf "<m>".toList])]))) := by
  have hread : parse abbreviated
      = .ok (some (or [and [leaf "<m>".toList, optional (leaf "<n>".toList)],
        cost (and [leaf "<o>".toList, leaf "<m>".toList])])) := by
    decide +kernel
  have hresolvable : Resolvable threeAbbreviations abbreviated := by decide +kernel
  exact ⟨hread, hresolvable, language?_expandAbbreviations hread hresolvable 1⟩

end Dictionary

end LinkGrammar
