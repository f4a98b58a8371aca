/-
LinkGrammar/Proofs/Formula/Rendered.lean

The text of a formula as something to cut regions out of.

Rendered text is mendable, and its regions are those of the tree: what stands inside the
braces of `render f`, from left to right, are the texts of the outermost optional groups
of `f` (`insides_render`).
-/
import LinkGrammar.Proofs.Formula.Region
import LinkGrammar.Proofs.Formula.RoundTrip

namespace LinkGrammar.Formula

mutual

/-- The bodies of the optional groups that stand in no other, from left to right. -/
def outerOptionals : Formula → List Formula
  | leaf _ => []
  | and fs => outerOptionalsAll fs
  | or fs => outerOptionalsAll fs
  | optional f => [f]
  | cost f => outerOptionals f

/-- The outermost optional parts of one operand after the other. -/
def outerOptionalsAll : List Formula → List Formula
  | [] => []
  | f :: fs => outerOptionals f ++ outerOptionalsAll fs

end

/-- The outermost optional parts of a node are those of its operands. -/
theorem outerOptionals_node (j : Joint) (fs : List Formula) :
    outerOptionals (j.node fs) = fs.flatMap outerOptionals := by
  have hall : outerOptionalsAll fs = fs.flatMap outerOptionals := by
    induction fs with
    | nil => rw [outerOptionalsAll]; rfl
    | cons f fs ih => rw [outerOptionalsAll, ih]; rfl
  cases j
  · show outerOptionals (and fs) = _
    rw [outerOptionals, hall]
  · show outerOptionals (or fs) = _
    rw [outerOptionals, hall]

theorem outerOptionals_joined (j : Joint) (fs : List Formula) :
    ((joined j.node fs).map outerOptionals).getD [] = fs.flatMap outerOptionals := by
  rcases fs with - | ⟨f, - | ⟨g, fs⟩⟩
  · rfl
  · exact (List.append_nil _).symm
  · exact outerOptionals_node j (f :: g :: fs)

/-! ### Rendered text is mendable -/

theorem spaced_of_isNameChar {c d : Char} (hc : isNameChar c = true) (hd : isNameChar d = true) :
    Spaced c d := by
  refine ⟨fun h => ?_, fun h => ?_⟩
  · rcases h with h | rfl
    · obtain ⟨b, rfl⟩ := isCloser_iff.1 h
      cases (not_isNameChar_closer b).symm.trans hc
    · exact absurd hc (by decide)
  · rcases h with h | rfl
    · obtain ⟨b, rfl⟩ := isOpener_iff.1 h
      cases (not_isNameChar_opener b).symm.trans hd
    · exact absurd hd (by decide)

theorem isChain_spaced_of_isNameChar {n : Text} (h : ∀ c ∈ n, isNameChar c = true) :
    n.IsChain Spaced := by
  induction n with
  | nil => exact List.isChain_nil
  | cons c n ih =>
    obtain ⟨hc, hn⟩ := List.forall_mem_cons.1 h
    refine List.isChain_cons.2 ⟨fun d hd => ?_, ih hn⟩
    exact spaced_of_isNameChar hc (hn d (List.mem_of_mem_head? hd))

/-- Spaced texts are put together to spaced texts. -/
theorem compositional_spaced : Compositional fun t => t.IsChain Spaced where
  name := fun n hn => isChain_spaced_of_isNameChar hn.2.1
  join := by
    intro j s t hs ht
    have hspace : Blanks [' '] := by simp [Blanks]; decide
    have hclosed : ∀ u, BeginsClosed (' ' :: u) := fun u => hspace.beginsClosed_append (by simp)
    have hopen : ∀ u, EndsOpen (u ++ [' ']) := fun u => hspace.endsOpen_append (by simp)
    have hsign : (j.lexeme.text).IsChain Spaced := by
      cases j
      · exact List.isChain_singleton _
      · exact List.isChain_cons_cons.2
          ⟨spaced_of_isNameChar (by decide) (by decide), List.isChain_singleton _⟩
    have htext : s ++ j.sign ++ t = ((s ++ [' ']) ++ j.lexeme.text) ++ ' ' :: t := by
      simp [Joint.sign_eq]
    -- blanks fit to everything on both of their sides
    have hleft : (s ++ [' ']).IsChain Spaced :=
      List.isChain_append.2 ⟨hs, List.isChain_singleton _, (hclosed []).spaced s⟩
    have hright : (' ' :: t).IsChain Spaced :=
      List.isChain_append.2 ⟨List.isChain_singleton _, ht, (hopen []).spaced t⟩
    rw [htext]
    exact List.isChain_append.2
      ⟨List.isChain_append.2 ⟨hleft, hsign, (hopen s).spaced _⟩, hright, (hclosed t).spaced _⟩
  bracket := by
    intro b s hs
    have hopen : EndsOpen [b.opener] := endsOpen_opener [] b
    have hclosed : BeginsClosed [b.closer] := beginsClosed_closer b []
    exact List.isChain_append.2
      ⟨List.isChain_append.2 ⟨List.isChain_singleton _, hs, hopen.spaced s⟩,
        List.isChain_singleton _, hclosed.spaced (b.opener :: s)⟩

theorem Fits.apart {a b : Lexeme} (h : Fits a b) : Apart a b := by
  rintro ⟨ha, hb⟩
  rw [h, ha] at hb
  cases hb

/-- A rendering stands for its tree, with nothing to mend. -/
theorem mendable_render {f : Formula} (h : Canonical f) : Mendable (render f) (some f) where
  spaced := compositional_spaced.render f h
  apart := (orderly_render h).fits.imp fun _ _ => Fits.apart
  evaluates := evaluates_render h

/-! ### Its regions -/

/-- Balanced texts are put together to balanced texts. -/
theorem compositional_balanced (b : Bracket) : Compositional (Balanced b) where
  name := fun n hn => .run hn.2.1
  join := by
    intro j s t hs ht
    have hsign : Balanced b j.sign := .of_not_mem (by cases b <;> cases j <;> decide)
      (by cases b <;> cases j <;> decide)
    exact (hs.append hsign).append ht
  bracket := by
    intro b' s hs
    by_cases hb : b' = b
    · rw [hb]
      exact hs.bracket
    · have hopen : Balanced b [b'.opener] :=
        .single (by simpa [Lexeme.ofChar?_opener] using hb) (by simp [Lexeme.ofChar?_opener])
      have hclose : Balanced b [b'.closer] :=
        .single (by simp [Lexeme.ofChar?_closer]) (by simpa [Lexeme.ofChar?_closer] using hb)
      exact (hopen.append hs).append hclose

/-- Brackets of another kind are of no account. -/
theorem insides_bracketed {b : Bracket} (b' : Bracket) (hb : b' ≠ b) {u : Text} {l : List Text}
    (h : ∀ t, insides b (u ++ t) = l ++ insides b t) (t : Text) :
    insides b (b'.opener :: u ++ [b'.closer] ++ t) = l ++ insides b t := by
  have hopen : b.opener ∉ [b'.opener] := by
    simpa using fun e => hb (Bracket.opener_inj e).symm
  have hclose : b.opener ∉ [b'.closer] := by
    simpa using b.opener_ne_closer b'
  rw [List.append_assoc, List.cons_append, ← List.singleton_append,
    insides_append_of_not_mem hopen, h, insides_append_of_not_mem hclose]

theorem insides_operandText {f : Formula} (h : ∀ t, insides .curly (render f ++ t)
      = (outerOptionals f).map render ++ insides .curly t) (t : Text) :
    insides .curly (operandText f ++ t) = (outerOptionals f).map render ++ insides .curly t := by
  unfold operandText
  split
  · exact insides_bracketed .round (by decide) h t
  · exact h t

mutual

/-- The regions of a rendering are its outermost optional parts. -/
theorem insides_render_append : (f : Formula) → Canonical f → ∀ t,
    insides .curly (render f ++ t) = (outerOptionals f).map render ++ insides .curly t
  | leaf n, h, t => by
    have hn : Bracket.curly.opener ∉ n := fun hmem => by
      cases (not_isNameChar_opener .curly).symm.trans (h.2.1 _ hmem)
    rw [render, outerOptionals]
    exact insides_append_of_not_mem hn t
  | and fs, h, t => by
    show insides .curly (render (Joint.and.node fs) ++ t) = _
    rw [render_node, outerOptionals]
    exact insides_operands .and fs h.2 t
  | or fs, h, t => by
    show insides .curly (render (Joint.or.node fs) ++ t) = _
    rw [render_node, outerOptionals]
    exact insides_operands .or fs h.2 t
  | optional f, h, t => by
    have hf : Balanced .curly (render f) := (compositional_balanced .curly).render f h.1
    have htext : render (optional f) ++ t
        = Bracket.curly.opener :: (render f ++ Bracket.curly.closer :: t) := by
      rw [render]
      simp [Bracket.opener, Bracket.closer]
    rw [htext, insides_region hf, outerOptionals]
    rfl
  | cost f, h, t => by
    rw [render, outerOptionals]
    exact insides_bracketed .square (by decide) (insides_render_append f h) t

theorem insides_operands (j : Joint) : (fs : List Formula) → AllCanonical fs → ∀ t,
    insides .curly (j.sign.intercalate (fs.map operandText) ++ t)
      = (outerOptionalsAll fs).map render ++ insides .curly t
  | [], _, t => by
    rw [outerOptionalsAll]
    rfl
  | [f], h, t => by
    rw [List.map_singleton, List.intercalate_singleton, outerOptionalsAll, outerOptionalsAll,
      List.append_nil]
    exact insides_operandText (insides_render_append f h.1) t
  | f :: g :: fs, h, t => by
    have hsign : Bracket.curly.opener ∉ j.sign := by cases j <;> decide
    have hall : outerOptionalsAll (f :: g :: fs)
        = outerOptionals f ++ outerOptionalsAll (g :: fs) := by rw [outerOptionalsAll]
    rw [List.map_cons, List.map_cons, List.intercalate_cons_cons, List.append_assoc,
      List.append_assoc, insides_operandText (insides_render_append f h.1),
      insides_append_of_not_mem hsign, ← List.map_cons, insides_operands j (g :: fs) h.2, hall,
      List.map_append, List.append_assoc]

end

/-- **The regions of a rendered formula are its outermost optional groups.** -/
theorem insides_render {f : Formula} (h : Canonical f) :
    insides .curly (render f) = (outerOptionals f).map render := by
  simpa [insides_of_not_mem] using insides_render_append f h []

/-! ### Formulas without optional groups -/

mutual

theorem outerOptionals_eq_nil : (f : Formula) → Lacks .curly f → outerOptionals f = []
  | leaf n, _ => by rw [outerOptionals]
  | and fs, h => by rw [outerOptionals, outerOptionalsAll_eq_nil fs h]
  | or fs, h => by rw [outerOptionals, outerOptionalsAll_eq_nil fs h]
  | optional f, h => absurd rfl h.1
  | cost f, h => by rw [outerOptionals, outerOptionals_eq_nil f h.2]

theorem outerOptionalsAll_eq_nil : (fs : List Formula) → AllLack .curly fs →
    outerOptionalsAll fs = []
  | [], _ => by rw [outerOptionalsAll]
  | f :: fs, h => by
    rw [outerOptionalsAll, outerOptionals_eq_nil f h.1, outerOptionalsAll_eq_nil fs h.2]
    rfl

end

/-- A formula without optional groups is written without braces. -/
theorem curly_not_mem_render {f : Formula} (h : Rest .curly f) : '{' ∉ render f := by
  rcases (mendable_render h.canonical).cutRegion (b := .curly) (by decide) with
    ⟨hcurly, -⟩ | ⟨cut, hcut, -⟩
  · exact hcurly
  · -- a region would be an outermost optional group
    have hinsides := insides_render h.canonical
    rw [insides_of_cutRegion hcut, outerOptionals_eq_nil f h.lacks] at hinsides
    cases hinsides

end LinkGrammar.Formula
