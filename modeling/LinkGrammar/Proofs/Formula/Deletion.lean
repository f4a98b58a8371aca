/-
LinkGrammar/Proofs/Formula/Deletion.lean

Formulas without their groups of one kind.

`without .curly f` is `f` without its optional groups, `without .square f` is `f` without
its cost groups.  An operator whose operands are all gone goes with them, and one with a
single operand left gives way to it; so nothing may be left of a formula.  What is left
can be read, and lacks the groups (`rest_of_mem_without`).

Deleting is said of walkers, too: a `Walker` that has lost groups goes on as before, and
what it collects differs by these groups only (`Walk.of_without`).  Where a text has no
bracket of the kind, there is nothing to delete from what it stands for
(`Evaluates.bind_without`).
-/
import LinkGrammar.Proofs.Formula.Nesting

namespace LinkGrammar.Formula

mutual

/-- What is left of the formula without its groups in the brackets `b`.  Round brackets
make no groups. -/
def without (b : Bracket) : Formula → Option Formula
  | leaf name => some (leaf name)
  | and fs => joined and (withoutAll b fs)
  | or fs => joined or (withoutAll b fs)
  | optional f => if b = .curly then none else (without b f).map orAbsent
  | cost f => if b = .square then none else (without b f).map cost

/-- The operands that are left, each without its groups in these brackets. -/
def withoutAll (b : Bracket) : List Formula → List Formula
  | [] => []
  | f :: fs => (without b f).toList ++ withoutAll b fs

end

theorem withoutAll_eq_filterMap (b : Bracket) (fs : List Formula) :
    withoutAll b fs = fs.filterMap (without b) := by
  induction fs with
  | nil => rw [withoutAll]; rfl
  | cons f fs ih =>
    rw [withoutAll, ih]
    rcases e : without b f with - | g <;> simp [e]

/-- From joined operands the groups go one by one. -/
theorem without_node (b : Bracket) (j : Joint) (fs : List Formula) :
    without b (j.node fs) = joined j.node (fs.filterMap (without b)) := by
  rw [← withoutAll_eq_filterMap]
  cases j
  · show without b (and fs) = _
    rw [without]
    rfl
  · show without b (or fs) = _
    rw [without]
    rfl

/-- Deleting from a level is deleting from each of its parts. -/
theorem joined_bind_without (b : Bracket) (j : Joint) (fs : List Formula) :
    (joined j.node fs).bind (without b) = joined j.node (fs.filterMap (without b)) := by
  rcases fs with - | ⟨f, - | ⟨g, fs⟩⟩
  · rfl
  · show without b f = _
    rcases e : without b f with - | g <;> simp [e, joined]
  · exact without_node b j (f :: g :: fs)

/-- What making a tree optional does to it. -/
theorem orAbsent_cases (f : Formula) :
    (∃ g, f = optional g ∧ f.orAbsent = optional g) ∨
      (∃ g, f = cost (optional g) ∧ f.orAbsent = optional (cost g)) ∨
      f.orAbsent = optional f := by
  unfold orAbsent
  split
  · exact .inl ⟨_, rfl, rfl⟩
  · exact .inr (.inl ⟨_, rfl, rfl⟩)
  · exact .inr (.inr rfl)

/-- To make it optional twice does no more. -/
theorem orAbsent_orAbsent (f : Formula) : f.orAbsent.orAbsent = f.orAbsent := by
  rcases orAbsent_cases f with ⟨g, -, h⟩ | ⟨g, -, h⟩ | h <;> rw [h] <;> rfl

variable {b : Bracket} (hb : b ≠ .round)
include hb

/-- What is optional goes with the braces. -/
theorem without_orAbsent (f : Formula) :
    without b f.orAbsent = if b = .curly then none else (without b f).map orAbsent := by
  rcases orAbsent_cases f with ⟨g, rfl, h⟩ | ⟨g, rfl, h⟩ | h
  · rw [h, without]
    split
    · rfl
    · simp [Function.comp_def, orAbsent_orAbsent]
  · -- the brackets change places, but the group goes with either
    rw [h]
    cases b
    · exact absurd rfl hb
    · simp [without]
    · simp [without]
  · rw [h, without]

/-- What is deleted from the contents of a group is deleted from the group. -/
theorem Bracket.wrap_bind_without (b' : Bracket) (part : Option Formula) :
    (b'.wrap part).bind (Formula.without b)
      = if b' = b then none else b'.wrap (part.bind (Formula.without b)) := by
  cases b' with
  | round => exact (if_neg hb.symm).symm
  | square =>
    rcases part with - | f
    · simp [Bracket.wrap]
    · show without b (cost f) = _
      rw [without]
      simp only [eq_comm, Bracket.wrap, Option.bind_some]
  | curly =>
    rcases part with - | f
    · simp [Bracket.wrap]
    · show without b f.orAbsent = _
      rw [without_orAbsent hb]
      simp only [eq_comm, Bracket.wrap, Option.bind_some]

omit hb

/-! ### What is left -/

mutual

/-- The formula has no group in the brackets `b`. -/
def Lacks (b : Bracket) : Formula → Prop
  | leaf _ => True
  | and fs => AllLack b fs
  | or fs => AllLack b fs
  | optional f => b ≠ .curly ∧ Lacks b f
  | cost f => b ≠ .square ∧ Lacks b f

/-- None of the operands has a group in these brackets. -/
def AllLack (b : Bracket) : List Formula → Prop
  | [] => True
  | f :: fs => Lacks b f ∧ AllLack b fs

end

theorem allLack_iff {b : Bracket} {fs : List Formula} :
    AllLack b fs ↔ ∀ f ∈ fs, Lacks b f := by
  induction fs with
  | nil => simp [AllLack]
  | cons f fs ih => simp [AllLack, ih]

/-- Joined operands lack what each of them lacks. -/
theorem lacks_of_mem_joined {b : Bracket} {j : Joint} {fs : List Formula}
    (h : ∀ f ∈ fs, Lacks b f) : ∀ g ∈ joined j.node fs, Lacks b g := by
  rcases fs with - | ⟨f, - | ⟨g, fs⟩⟩
  · simp [joined]
  · simpa [joined] using h
  · rintro _ ⟨⟩
    cases j <;> exact allLack_iff.2 h

/-- Making a tree optional adds no other brackets. -/
theorem Lacks.orAbsent {b : Bracket} {f : Formula} (hb : b ≠ .curly) (h : Lacks b f) :
    Lacks b f.orAbsent := by
  rcases orAbsent_cases f with ⟨g, rfl, e⟩ | ⟨g, rfl, e⟩ | e
  · exact e ▸ h
  · obtain ⟨hsquare, -, hg⟩ := h
    exact e ▸ ⟨hb, hsquare, hg⟩
  · exact e ▸ ⟨hb, h⟩

/-- The formula can be read, and has no group in the brackets `b`. -/
structure Rest (b : Bracket) (f : Formula) : Prop where
  canonical : Canonical f
  lacks : Lacks b f

/-- Joined operands are at rest if each of them is. -/
theorem rest_of_mem_joined {b : Bracket} {j : Joint} {fs : List Formula}
    (h : ∀ f ∈ fs, Rest b f) : ∀ g ∈ joined j.node fs, Rest b g := by
  have hcanonical : CanonicalPart (joined j.node fs) :=
    .joined (fun hlen hall => by cases j <;> exact ⟨hlen, hall⟩) fun f hf => (h f hf).canonical
  exact fun g hg => ⟨hcanonical g hg, lacks_of_mem_joined (fun f hf => (h f hf).lacks) g hg⟩

mutual

/-- What is left of a formula has no group any more. -/
theorem rest_of_mem_without (b : Bracket) : (f : Formula) → Canonical f →
    ∀ g ∈ without b f, Rest b g
  | leaf n, h => by
    rw [without]
    rintro _ ⟨⟩
    exact ⟨h, trivial⟩
  | and fs, h => by
    show ∀ g ∈ without b (Joint.and.node fs), Rest b g
    rw [without_node]
    exact rest_of_mem_joined (rest_of_mem_filterMap_without b fs h.2)
  | or fs, h => by
    show ∀ g ∈ without b (Joint.or.node fs), Rest b g
    rw [without_node]
    exact rest_of_mem_joined (rest_of_mem_filterMap_without b fs h.2)
  | optional f, h => by
    rw [without]
    split
    · simp
    · next hb =>
      intro g hg
      obtain ⟨g', hg', rfl⟩ := Option.map_eq_some_iff.1 hg
      have hrest := rest_of_mem_without b f h.1 g' hg'
      exact ⟨hrest.canonical.orAbsent, hrest.lacks.orAbsent hb⟩
  | cost f, h => by
    rw [without]
    split
    · simp
    · next hb =>
      intro g hg
      obtain ⟨g', hg', rfl⟩ := Option.map_eq_some_iff.1 hg
      have hrest := rest_of_mem_without b f h g' hg'
      exact ⟨hrest.canonical, hb, hrest.lacks⟩

theorem rest_of_mem_filterMap_without (b : Bracket) : (fs : List Formula) → AllCanonical fs →
    ∀ g ∈ fs.filterMap (without b), Rest b g
  | [], _ => by simp
  | f :: fs, h => by
    have hf := rest_of_mem_without b f h.1
    have hfs := rest_of_mem_filterMap_without b fs h.2
    rw [← withoutAll_eq_filterMap] at hfs ⊢
    rw [withoutAll]
    refine List.forall_mem_append.2 ⟨fun g hg => hf g ?_, hfs⟩
    simpa using hg

end

mutual

/-- Where there is no group, nothing is deleted. -/
theorem without_eq_some {b : Bracket} : (f : Formula) → Canonical f → Lacks b f →
    without b f = some f
  | leaf n, _, _ => by rw [without]
  | and fs, h, hf => by
    show without b (Joint.and.node fs) = _
    rw [without_node, filterMap_without fs h.2 hf]
    exact joined_of_two_le h.1
  | or fs, h, hf => by
    show without b (Joint.or.node fs) = _
    rw [without_node, filterMap_without fs h.2 hf]
    exact joined_of_two_le h.1
  | optional f, h, hf => by
    rw [without, if_neg hf.1, without_eq_some f h.1 hf.2, Option.map_some,
      orAbsent_eq_optional h.2]
  | cost f, h, hf => by
    rw [without, if_neg hf.1, without_eq_some f h hf.2]
    rfl

/-- Operands that lack these brackets stay as they are. -/
theorem filterMap_without {b : Bracket} : (fs : List Formula) → AllCanonical fs → AllLack b fs →
    fs.filterMap (without b) = fs
  | [], _, _ => rfl
  | f :: fs, h, hfs => by
    rw [List.filterMap_cons_some (without_eq_some f h.1 hfs.1), filterMap_without fs h.2 hfs.2]

end

theorem filterMap_without_of_rest {b : Bracket} {fs : List Formula} (h : ∀ f ∈ fs, Rest b f) :
    fs.filterMap (without b) = fs :=
  filterMap_without fs (allCanonical_iff.2 fun f hf => (h f hf).canonical)
    (allLack_iff.2 fun f hf => (h f hf).lacks)

/-- What has no optional group can be made optional. -/
theorem Rest.canonical_optional {f : Formula} (h : Rest .curly f) : Canonical (optional f) := by
  refine ⟨h.canonical, ?_⟩
  have hlacks := h.lacks
  unfold isAbsentable
  split
  · exact absurd rfl hlacks.1
  · exact absurd rfl hlacks.2.1
  · rfl

/-! ### Walkers that have lost groups -/

namespace Row

/-- A row without the groups in these brackets. -/
def without (b : Bracket) (r : Row) : Row :=
  { r with parts := r.parts.filterMap (Formula.without b) }

/-- What a row without the groups stands for. -/
theorem value_without (b : Bracket) (r : Row) :
    (r.without b).value = r.value.bind (Formula.without b) := by
  rw [Row.value, Row.value, joined_bind_without, List.filterMap_reverse]
  rfl

/-- A part that is added loses its groups too. -/
theorem without_add (b : Bracket) (r : Row) (part : Option Formula) :
    (r.add part).without b = (r.without b).add (part.bind (Formula.without b)) := by
  rcases part with - | f
  · rfl
  · rcases e : Formula.without b f with - | g <;> simp [Row.without, Row.add, e]

end Row

namespace Walker

/-- The walker after its groups in the brackets `b` are deleted. -/
def without (b : Bracket) (w : Walker) : Walker :=
  ⟨w.row.without b, w.outer.map fun e => (e.1, e.2.without b)⟩

/-- Walkers that look alike without the groups do so level by level. -/
theorem without_eq_iff {v w : Walker} :
    v.without b = w.without b ↔ v.row.without b = w.row.without b ∧
      v.outer.map (fun e => (e.1, e.2.without b)) = w.outer.map fun e => (e.1, e.2.without b) :=
  Walker.mk.injEq .. ▸ Iff.rfl

include hb

/-- Deleting does not change what can be walked over. -/
theorem Step.of_without {v w w' : Walker} {l : Lexeme} (h : w.Step l w')
    (hv : v.without b = w.without b) : ∃ v', v.Step l v' ∧ v'.without b = w'.without b := by
  obtain ⟨hrow, houter⟩ := without_eq_iff.1 hv
  have hjoint : v.row.joint = w.row.joint := (congrArg Row.joint hrow :)
  cases l with
  | name n =>
    obtain rfl := h
    refine ⟨_, rfl, without_eq_iff.2 ⟨?_, houter⟩⟩
    rw [Row.without_add, Row.without_add, hrow]
  | and =>
    obtain ⟨hw, rfl⟩ := h
    exact ⟨v, ⟨hjoint.trans hw, rfl⟩, hv⟩
  | or =>
    obtain ⟨hw, rfl⟩ := h
    exact ⟨v, ⟨hjoint.trans hw, rfl⟩, hv⟩
  | opening b' =>
    -- any guess is allowed, so `v` can make the one that `w` made
    obtain ⟨j, rfl⟩ := h
    exact ⟨_, ⟨j, rfl⟩, without_eq_iff.2 ⟨rfl, by simp [hrow, houter]⟩⟩
  | closing b' =>
    obtain ⟨r, o, ho, rfl⟩ := h
    rw [ho, List.map_cons] at houter
    obtain ⟨⟨b₁, r'⟩, o', ho', he, hrest⟩ := List.map_eq_cons_iff.1 houter
    obtain ⟨rfl, hr⟩ := Prod.mk.inj he
    refine ⟨_, ⟨r', o', ho', rfl⟩, without_eq_iff.2 ⟨?_, hrest⟩⟩
    -- either the new part goes as a whole, or what is deleted is deleted inside of it
    rw [Row.without_add, Row.without_add, hr, Bracket.wrap_bind_without hb,
      Bracket.wrap_bind_without hb, ← Row.value_without, ← Row.value_without, hrow]

theorem Walk.of_without {v w w' : Walker} {ls : List Lexeme} (h : w.Walk ls w')
    (hv : v.without b = w.without b) : ∃ v', v.Walk ls v' ∧ v'.without b = w'.without b := by
  induction ls generalizing v w with
  | nil =>
    obtain rfl := h
    exact ⟨v, rfl, hv⟩
  | cons l ls ih =>
    obtain ⟨m, hl, hls⟩ := h
    obtain ⟨n, hn, hview⟩ := hl.of_without hb hv
    obtain ⟨v', hv', he⟩ := ih hls hview
    exact ⟨v', ⟨n, hn, hv'⟩, he⟩

/-- The walker holds no group in the brackets `b`, and is inside of none. -/
structure Free (b : Bracket) (w : Walker) : Prop where
  parts : w.without b = w
  outside : ∀ e ∈ w.outer, e.1 ≠ b

theorem Step.free {w w' : Walker} {l : Lexeme} (h : w.Step l w') (hw : w.Free b)
    (hl : l ≠ .opening b) : w'.Free b := by
  obtain ⟨hparts, houtside⟩ := hw
  obtain ⟨hrow, houter⟩ : w.row.without b = w.row ∧
      w.outer.map (fun e => (e.1, e.2.without b)) = w.outer := Walker.mk.inj hparts
  cases l with
  | name n =>
    obtain rfl := h
    refine ⟨congrArg₂ Walker.mk ?_ houter, houtside⟩
    rw [Row.without_add, hrow]
    rfl
  | and =>
    obtain ⟨-, rfl⟩ := h
    exact ⟨hparts, houtside⟩
  | or =>
    obtain ⟨-, rfl⟩ := h
    exact ⟨hparts, houtside⟩
  | opening b' =>
    obtain ⟨j, rfl⟩ := h
    refine ⟨congrArg₂ Walker.mk rfl ?_, List.forall_mem_cons.2 ⟨?_, houtside⟩⟩
    · rw [List.map_cons, hrow, houter]
    · exact fun e => hl (congrArg _ e)
  | closing b' =>
    -- the bracket that is closed was opened before, so it is not a `b`
    obtain ⟨r, o, ho, rfl⟩ := h
    rw [ho] at houtside houter
    obtain ⟨hb', hrest⟩ := List.forall_mem_cons.1 houtside
    rw [List.map_cons] at houter
    obtain ⟨he, ho⟩ := List.cons.inj houter
    have hr : r.without b = r := (Prod.mk.inj he).2
    refine ⟨congrArg₂ Walker.mk ?_ ho, hrest⟩
    rw [Row.without_add, hr, Bracket.wrap_bind_without hb, if_neg hb', ← Row.value_without, hrow]

/-- A walker that is free of a kind of bracket stays so as long as none is opened. -/
theorem Walk.free {w w' : Walker} {ls : List Lexeme} (h : w.Walk ls w') (hw : w.Free b)
    (hls : .opening b ∉ ls) : w'.Free b := by
  induction ls generalizing w with
  | nil =>
    obtain rfl := h
    exact hw
  | cons l ls ih =>
    obtain ⟨hl, hls⟩ := List.ne_and_not_mem_of_not_mem_cons hls
    obtain ⟨m, hstep, hwalk⟩ := h
    exact ih hwalk (hstep.free hb hw (Ne.symm hl)) hls

end Walker

open Walker

/-- Where no bracket of the kind is opened, nothing is there to be deleted. -/
theorem Evaluates.bind_without (hb : b ≠ .round) {ls : List Lexeme} {f : Option Formula}
    (h : Evaluates ls f) (hls : .opening b ∉ ls) : f.bind (without b) = f := by
  obtain ⟨j, r, hwalk, rfl⟩ := h
  obtain ⟨hparts, -⟩ := hwalk.free hb ⟨rfl, by simp [start]⟩ hls
  have hr : r.without b = r := congrArg Walker.row hparts
  rw [← Row.value_without, hr]

end LinkGrammar.Formula
