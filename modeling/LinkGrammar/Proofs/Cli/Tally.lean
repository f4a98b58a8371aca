/-
LinkGrammar/Proofs/Cli/Tally.lean

What the numbers of a benchmark count.

Every line that is not blank has an outcome: with rules that formulas state, no error of
generation ends a benchmark.  The tally says for each kind of outcome how many lines have it
(`Counts`); one more outcome keeps this true, so it is true of the whole file.  Where there are
two sentences or more, it matters whether the line is among them.  A single sentence is counted
whether it is the line or not.
-/
import Mathlib
import LinkGrammar.Cli.Run
import LinkGrammar.Proofs.Generation.Outcome

namespace LinkGrammar

/-! ### Outcomes -/

/-- Generation does not fail for a formula. -/
theorem Generation.generate_ne_formula {g : Grammar} (hg : g.Stated) (o : Options)
    (tokens : List Text) (e : FormulaError) : generate g o tokens ≠ .error (.formula e) := by
  intro h
  unfold generate at h
  by_cases hbag : bagOf o tokens = []
  · rw [run_of_bag_eq_nil hbag] at h
    cases h
  rcases hobstacle : obstacle? g o (bagOf o tokens) with - | e'
  · obtain ⟨w, -, -, he⟩ := missesOnly_run hg hobstacle _ h
    cases he
  · rw [run_of_obstacle hbag hobstacle] at h
    cases h
    unfold obstacle? at hobstacle
    split at hobstacle
    · cases hobstacle
    · obtain ⟨w, -, hw⟩ := Option.map_eq_some_iff.1 hobstacle
      cases hw

namespace Cli

variable {g : Grammar} {o : Options}

/-- The outcome of a line. -/
def outcomeOf (g : Grammar) (o : Options) (line : Text) : Outcome :=
  ⟨line, (generate g o (sentenceWords line)).map (·.sentences)⟩

/-- A benchmark comes to its last line. -/
theorem Benchmark.ofLines_eq (hg : g.Stated) (o : Options) (lines : List Text) :
    Benchmark.ofLines g o lines = ⟨lines.map (outcomeOf g o), none⟩ := by
  induction lines with
  | nil => rfl
  | cons line lines ih =>
    unfold Benchmark.ofLines
    split
    · next e he => exact absurd he (Generation.generate_ne_formula hg o _ e)
    · simp only [ih]
      rfl

namespace Outcome

/-- The sentences, unless there was an error. -/
def sentences? (c : Outcome) : Option (List Text) := c.result.toOption

/-- The line is the only sentence. -/
def findsLine (c : Outcome) : Bool := c.sentences? = some [c.line]

/-- There is only one sentence, and it is not the line. -/
def findsOther (c : Outcome) : Bool :=
  c.sentences?.any fun sentences => sentences.length = 1 && !sentences.contains c.line

/-- The line is one of two sentences or more. -/
def findsLineAmong (c : Outcome) : Bool :=
  c.sentences?.any fun sentences => 2 ≤ sentences.length && sentences.contains c.line

/-- There are two sentences or more, and the line is none of them. -/
def findsOthers (c : Outcome) : Bool :=
  c.sentences?.any fun sentences => 2 ≤ sentences.length && !sentences.contains c.line

/-- There is no sentence. -/
def findsNone (c : Outcome) : Bool := c.sentences? = some []

/-- There was an error. -/
def fails (c : Outcome) : Bool := c.sentences? = none

end Outcome

/-! ### Counting -/

namespace Tally

/-- The numbers of a tally are those of the outcomes of each kind. -/
structure Counts (cs : List Outcome) (t : Tally) : Prop where
  total : t.total = cs.length
  /-- A single sentence counts, whether it is the line or not. -/
  single : t.single = cs.countP (·.findsLine) + cs.countP (·.findsOther)
  multipleOneCorrect : t.multipleOneCorrect = cs.countP (·.findsLineAmong)
  multipleNoneCorrect : t.multipleNoneCorrect = cs.countP (·.findsOthers)
  none : t.none = cs.countP (·.findsNone)
  errors : t.errors = cs.countP (·.fails)
  sum : t.single + t.multipleOneCorrect + t.multipleNoneCorrect + t.none + t.errors = t.total

variable {cs : List Outcome} {t : Tally}

theorem Counts.zero : Counts [] Tally.zero := ⟨rfl, rfl, rfl, rfl, rfl, rfl, rfl⟩

/-- An outcome adds to the number of its kind. -/
theorem add_eq (t : Tally) (c : Outcome) :
    t.add c = ⟨t.total + 1, t.single + (c.findsLine.toNat + c.findsOther.toNat),
      t.multipleOneCorrect + c.findsLineAmong.toNat, t.multipleNoneCorrect + c.findsOthers.toNat,
      t.none + c.findsNone.toNat, t.errors + c.fails.toNat⟩ := by
  unfold Tally.add Outcome.findsLine Outcome.findsOther Outcome.findsLineAmong
    Outcome.findsOthers Outcome.findsNone Outcome.fails Outcome.sentences?
  rcases c with ⟨line, e | - | ⟨s, - | ⟨s', rest⟩⟩⟩
  · rfl
  · rfl
  · by_cases hline : s = line
    · simp [Except.map, Except.toOption, Verdict.ofSentences, hline]
    · simp [Except.map, Except.toOption, Verdict.ofSentences, hline, Ne.symm hline]
  · by_cases hline : line ∈ s :: s' :: rest
    · simp [Except.map, Except.toOption, Verdict.ofSentences, hline, -List.mem_cons]
    · simp [Except.map, Except.toOption, Verdict.ofSentences, hline, -List.mem_cons]

/-- It adds to one number only. -/
theorem sum_add (t : Tally) (c : Outcome) :
    let t' := t.add c
    t'.single + t'.multipleOneCorrect + t'.multipleNoneCorrect + t'.none + t'.errors
      = t.single + t.multipleOneCorrect + t.multipleNoneCorrect + t.none + t.errors + 1 := by
  unfold Tally.add
  dsimp only
  split <;> (dsimp only; omega)

theorem countP_concat {α : Type} (p : α → Bool) (l : List α) (a : α) :
    (l ++ [a]).countP p = l.countP p + (p a).toNat := by
  rw [List.countP_append, List.countP_singleton]
  rcases p a with - | - <;> rfl

/-- One more outcome. -/
theorem Counts.add (h : Counts cs t) (c : Outcome) : Counts (cs ++ [c]) (t.add c) := by
  have hsum : _ = _ := sum_add t c
  rw [h.sum] at hsum
  rw [add_eq] at hsum ⊢
  constructor
  · rw [List.length_append, List.length_singleton, h.total]
  · simp only [countP_concat, h.single]
    omega
  · rw [countP_concat, h.multipleOneCorrect]
  · rw [countP_concat, h.multipleNoneCorrect]
  · rw [countP_concat, h.none]
  · rw [countP_concat, h.errors]
  · exact hsum

theorem Counts.foldl (h : Counts cs t) (more : List Outcome) :
    Counts (cs ++ more) (more.foldl Tally.add t) := by
  induction more generalizing cs t with
  | nil => rwa [List.append_nil]
  | cons c more ih =>
    rw [List.append_cons]
    exact ih (h.add c)

/-- The tally of outcomes counts them. -/
theorem counts_ofOutcomes (cs : List Outcome) : Counts cs (ofOutcomes cs) :=
  Counts.zero.foldl cs

end Tally

/-! ### Lines -/

/-- The lines of a benchmark are those that are not blank. -/
theorem length_referenceLines (text : Text) :
    (referenceLines text).length = (Text.lines text).countP (!Text.isBlankText ·) := by
  unfold referenceLines
  rw [← List.countP_eq_length_filter, List.countP_map]
  apply List.countP_congr
  intro line _
  simp [Text.trim_eq_nil_iff]

/-! ### The benchmark of a file -/

/-- What a benchmark leaves behind for the text of its file. -/
def benchmarkResponse (l : Lexicon) (i : Invocation) (path : Text) :
    Except ReadFault Text → Response
  | .error fault =>
    .failure 1 ("failed to read sentences '" ++ String.ofList path ++ "': " ++ fault.message)
  | .ok text =>
    let b := Benchmark.ofLines l.grammar i.options (referenceLines text)
    match b.failure with
    | none => .success (benchmarkReport i.color b)
    | some e => { Response.failure 1 e.message with stdout := benchmarkReport i.color b }

/-- A benchmark asks its host for nothing but the file. -/
theorem runBenchmark_eq {m : Type → Type} [Monad m] [LawfulMonad m] (host : Host m)
    (l : Lexicon) (i : Invocation) (path : Text) :
    runBenchmark host l i path
      = (fun bytes => benchmarkResponse l i path (decode bytes)) <$> host.read path := by
  rw [← bind_pure_comp]
  unfold runBenchmark benchmarkResponse
  refine congrArg (host.read path >>= ·) (funext fun bytes => ?_)
  rcases decode bytes with fault | text
  · rfl
  · dsimp only
    rcases (Benchmark.ofLines l.grammar i.options (referenceLines text)).failure with - | e
    · rfl
    · rfl

/-- **What the numbers of a benchmark count.**  A benchmark over a file that can be read ends
with a report on each line that is not blank and on a tally of them.  The lines with two
sentences or more are told apart by whether the line is among them.  Those with a single
sentence are not: their number is that of the lines that are their only sentence, and of those
whose only sentence is another. -/
theorem runBenchmark_tally {m : Type → Type} [Monad m] [LawfulMonad m] (host : Host m)
    {l : Lexicon} (hl : l.grammar.Stated) (i : Invocation) (path : Text) :
    runBenchmark host l i path
      = (fun bytes => benchmarkResponse l i path (decode bytes)) <$> host.read path ∧
    ∀ text, ∃ t : Tally,
      let outcomes := (referenceLines text).map (outcomeOf l.grammar i.options)
      benchmarkResponse l i path (.ok text) = .success
        (String.join (outcomes.map (outcomeReport i.color)) ++ tallyReport i.color t) ∧
      t.Counts outcomes ∧ t.total = (Text.lines text).countP (!Text.isBlankText ·) := by
  refine ⟨runBenchmark_eq host l i path, fun text => ⟨_, ?_, Tally.counts_ofOutcomes _, ?_⟩⟩
  · simp only [benchmarkResponse, Benchmark.ofLines_eq hl]
    rfl
  · rw [(Tally.counts_ofOutcomes _).total, List.length_map, length_referenceLines]

/-- `cat` links to `sat`. -/
def catLexicon? : Except FormulaError Lexicon := do
  let l ← Lexicon.empty.insertFormula ['c', 'a', 't'] ['S', '+']
  l.insertFormula ['s', 'a', 't'] ['S', '-']

/-- The lexicon that `catLexicon?` gives. -/
def catLexicon : Lexicon := catLexicon?.toOption.getD .empty

theorem stated_catLexicon : catLexicon.grammar.Stated := by
  apply Lexicon.stated_getD
  intro l h
  obtain ⟨l₁, h₁, h₂⟩ := bind_eq_ok.1 h
  exact Lexicon.stated_insertFormula (Lexicon.stated_insertFormula Lexicon.stated_empty h₁) h₂

/-- A host with one file, for which nothing takes time. -/
def oneFileHost (path : Text) (bytes : ByteArray) : Host Id where
  read p := pure (if p = path then .ok bytes else .error .notFound)
  timed work := pure (work (), "0ms")
  color := false

/-- The outcomes of a sentence and of its words in the wrong order. -/
theorem outcomes_catSat :
    (referenceLines "Cat sat.\n \nsat cat\n".toList).map (outcomeOf catLexicon.grammar .default)
      = [⟨"Cat sat.".toList, .ok ["Cat sat.".toList]⟩,
          ⟨"sat cat".toList, .ok ["Cat sat.".toList]⟩] := by
  cbv

/-- Both lines have a single sentence, the first itself and the second another. -/
theorem runBenchmark_tally_catSat :
    let i : Invocation := ⟨"cat.dict".toList, .benchmark "cat.txt".toList, .default, false⟩
    let text : Text := "Cat sat.\n \nsat cat\n".toList
    ∃ t : Tally, t.total = 2 ∧ t.single = 1 + 1 ∧ ∃ report,
      benchmarkResponse catLexicon i "cat.txt".toList (.ok text)
        = .success (report ++ tallyReport false t) := by
  intro i text
  let host := oneFileHost "cat.txt".toList (String.ofList text).toUTF8
  obtain ⟨t, hresponse, hcounts, htotal⟩ :=
    (runBenchmark_tally host stated_catLexicon i "cat.txt".toList).2 text
  rw [outcomes_catSat] at hcounts
  exact ⟨t, htotal, hcounts.single, _, hresponse⟩

theorem outcomes_satCat :
    (referenceLines "sat cat\n".toList).map (outcomeOf catLexicon.grammar .default)
      = [⟨"sat cat".toList, .ok ["Cat sat.".toList]⟩] := by
  cbv

/-- The words of the line have a single sentence, and it is not the line. -/
theorem tally_otherSentence :
    let b := Benchmark.ofLines catLexicon.grammar .default (referenceLines "sat cat\n".toList)
    b.failure = none ∧ b.outcomes = [⟨"sat cat".toList, .ok ["Cat sat.".toList]⟩] ∧
      (Tally.ofOutcomes b.outcomes).single = 1 ∧ b.outcomes.countP (·.findsLine) = 0 := by
  rw [Benchmark.ofLines_eq stated_catLexicon, outcomes_satCat]
  exact ⟨rfl, rfl, rfl, by decide⟩

end Cli

end LinkGrammar
