/-
LinkGrammar/Proofs/Cli/Inline.lean

An option and its value, in two arguments or in one.

    --dict d.dict w                 the dictionary d.dict
    --dict=d.dict w                 the same
    --dict --dict=d.dict w          the dictionary --dict=d.dict
    --dict=--dict=d.dict w          the dictionary d.dict

The two ways differ in one point only.  In a single argument the opening is taken off as often as
it stands there, so a value that begins with the opening of its own option loses it
(`dropOpenings_spec`); every other value is the same in both, and then so are the command and the
message, whatever stands before and behind.

What stands before has to be complete: after `--`, and as the value of another option, an argument
is no option (`OptionPosition`).  Complete arguments are read on their own, and what follows is
read with the draft that they leave (`readArguments_append`).
-/
import Mathlib
import LinkGrammar.Cli.Invocation

namespace LinkGrammar.Cli

/-! ### Taking off openings -/

namespace ValueOption

/-- A text without the opening stays as it is. -/
theorem dropOpenings_eq_self {opening t : Text} (h : ¬opening <+: t) :
    dropOpenings opening t = t := by
  have hnone : opening.isPrefixOf? t = none := by
    rw [Option.eq_none_iff_forall_not_mem]
    intro rest hrest
    exact h ⟨rest, List.isPrefixOf?_eq_some_iff_append_eq.1 hrest⟩
  rw [dropOpenings, hnone]

theorem dropOpenings_append {opening : Text} (hne : opening ≠ []) (t : Text) :
    dropOpenings opening (opening ++ t) = dropOpenings opening t := by
  have hsome : opening.isPrefixOf? (opening ++ t) = some t :=
    List.isPrefixOf?_eq_some_iff_append_eq.2 rfl
  have hlt : t.length < (opening ++ t).length := by
    rw [List.length_append]
    exact Nat.lt_add_of_pos_left (List.length_pos_iff.2 hne)
  rw [dropOpenings, hsome]
  exact if_pos hlt

/-- The text is what is left with some openings before it, and what is left begins with none. -/
theorem dropOpenings_spec {opening : Text} (hne : opening ≠ []) (t : Text) :
    (∃ n, t = (List.replicate n opening).flatten ++ dropOpenings opening t) ∧
      ¬opening <+: dropOpenings opening t := by
  induction t using dropOpenings.induct opening with
  | case1 t hnone =>
    have hno : ¬opening <+: t := by
      rintro ⟨rest, hrest⟩
      rw [List.isPrefixOf?_eq_some_iff_append_eq.2 hrest] at hnone
      cases hnone
    rw [dropOpenings_eq_self hno]
    exact ⟨⟨0, rfl⟩, hno⟩
  | case2 t rest hsome hlt ih =>
    obtain rfl := List.isPrefixOf?_eq_some_iff_append_eq.1 hsome
    rw [dropOpenings_append hne]
    obtain ⟨⟨n, hn⟩, hno⟩ := ih
    refine ⟨⟨n + 1, ?_⟩, hno⟩
    rw [List.replicate_succ, List.flatten_cons, List.append_assoc, ← hn]
  | case3 t rest hsome hnlt =>
    obtain rfl := List.isPrefixOf?_eq_some_iff_append_eq.1 hsome
    rw [List.length_append] at hnlt
    exact absurd (Nat.lt_add_of_pos_left (List.length_pos_iff.2 hne)) hnlt

/-- Only a text without the opening stays as it is. -/
theorem dropOpenings_eq_self_iff {opening : Text} (hne : opening ≠ []) {t : Text} :
    dropOpenings opening t = t ↔ ¬opening <+: t := by
  refine ⟨fun h => ?_, dropOpenings_eq_self⟩
  have hno := (dropOpenings_spec hne t).2
  rwa [h] at hno

/-! ### Recognizing an option -/

theorem opening_ne_nil (o : ValueOption) : o.opening ≠ [] := by
  cases o <;> decide

theorem mem_all (o : ValueOption) : o ∈ all := by
  cases o <;> decide

theorem ofArgument?_long (o : ValueOption) : ofArgument? o.long = some o := by
  cases o <;> decide

theorem eq_mem_opening_append (o : ValueOption) (v : Text) : '=' ∈ o.opening ++ v :=
  List.mem_append_left _ (List.mem_append_right _ (List.mem_singleton_self _))

/-- No option is named with `=`. -/
theorem eq_not_mem_long (o : ValueOption) : '=' ∉ o.long ∧ ∀ name ∈ o.short?, '=' ∉ name := by
  cases o <;> decide

/-- With `=` and a value behind it, it is no name. -/
theorem ofArgument?_opening_append (o : ValueOption) (v : Text) :
    ofArgument? (o.opening ++ v) = none := by
  unfold ofArgument?
  rw [List.find?_eq_none]
  intro o' _ hnamed
  obtain ⟨hlong, hshort⟩ := o'.eq_not_mem_long
  rw [Bool.or_eq_true, decide_eq_true_eq, decide_eq_true_eq] at hnamed
  rcases hnamed with h | h
  · exact hlong (h ▸ o.eq_mem_opening_append v)
  · exact hshort _ h.symm (o.eq_mem_opening_append v)

theorem eq_of_opening_prefix {o o' : ValueOption} (h : o'.opening <+: o.opening) : o' = o := by
  revert h
  cases o <;> cases o' <;> decide

/-- A single argument gives its option, and the value without openings. -/
theorem ofInline?_opening_append (o : ValueOption) (v : Text) :
    ofInline? (o.opening ++ v) = some (o, dropOpenings o.opening v) := by
  have hfind : (all.find? fun o' => o'.opening.isPrefixOf (o.opening ++ v)) = some o := by
    rcases h : all.find? fun o' => o'.opening.isPrefixOf (o.opening ++ v) with - | o'
    · have hno := List.find?_eq_none.1 h o o.mem_all
      exact absurd (List.isPrefixOf_iff_prefix.2 (List.prefix_append _ _)) hno
    · have hopens : o'.opening <+: o.opening ++ v := by simpa using List.find?_some h
      rcases List.prefix_or_prefix_of_prefix hopens (List.prefix_append _ _) with hpre | hpre
      · rw [h, eq_of_opening_prefix hpre]
      · rw [h, eq_of_opening_prefix hpre]
  unfold ofInline?
  rw [hfind, Option.map_some, dropOpenings_append o.opening_ne_nil]

end ValueOption

/-! ### Reading an option -/

open ValueOption (ofArgument? ofInline? dropOpenings)

variable {arg value v : Text} {args pre : List Text} {d : Draft} {o : ValueOption}

/-- The arguments that stand for themselves. -/
def flags : List Text :=
  ["-h", "--help", "-V", "--version", "--color", "--no-color", "--no-modifiers", "--"].map
    String.toList

/-- An option takes the next argument for its value, whatever that is. -/
theorem readArguments_named (h : ofArgument? arg = some o) :
    readArguments d (arg :: value :: args) = d.set o value >>= (readArguments · args) := by
  have hflag : arg ∉ flags := by
    intro hmem
    have key : ∀ flag ∈ flags, ofArgument? flag = none := by decide
    rw [key arg hmem] at h
    cases h
  simp only [flags, List.map_cons, List.map_nil, List.mem_cons, List.not_mem_nil, or_false,
    not_or] at hflag
  simp only [readArguments, hflag, h, decide_false, Bool.or_false, Bool.false_eq_true, if_false]
  rcases d.set o value with e | d'
  · rfl
  · rfl

/-- An option with its value in one argument. -/
theorem readArguments_inline :
    readArguments d ((o.opening ++ value) :: args)
      = d.set o (dropOpenings o.opening value) >>= (readArguments · args) := by
  have hflag : o.opening ++ value ∉ flags := by
    intro hmem
    have key : ∀ flag ∈ flags, '=' ∉ flag := by decide
    exact key _ hmem (o.eq_mem_opening_append value)
  simp only [flags, List.map_cons, List.map_nil, List.mem_cons, List.not_mem_nil, or_false,
    not_or] at hflag
  simp only [readArguments, hflag, o.ofArgument?_opening_append, o.ofInline?_opening_append,
    decide_false, Bool.or_false, Bool.false_eq_true, if_false]
  rcases d.set o (dropOpenings o.opening value) with e | d'
  · rfl
  · rfl

/-! ### Complete arguments -/

/-- The arguments are complete: what follows is an argument of its own, neither the value of an
option nor a word behind `--`. -/
inductive OptionPosition : List Text → Prop where
  | start : OptionPosition []
  | single {arg : Text} {args : List Text} : ofArgument? arg = none → arg ≠ "--".toList →
      OptionPosition args → OptionPosition (arg :: args)
  | pair {arg value : Text} {args : List Text} {o : ValueOption} : ofArgument? arg = some o →
      OptionPosition args → OptionPosition (arg :: value :: args)

/-- Read on behind arguments that have been read. -/
def resume (args : List Text) : Request Draft → Except UsageError (Request Draft)
  | .help => .ok .help
  | .version => .ok .version
  | .run d => readArguments d args

/-- An argument that is complete in itself is read before the others. -/
theorem readArguments_cons (hname : ofArgument? arg = none) (hend : arg ≠ "--".toList) (d : Draft)
    (args : List Text) :
    readArguments d (arg :: args) = readArguments d [arg] >>= resume args := by
  rw [readArguments, readArguments]
  simp only [hname, if_neg hend]
  rcases ofInline? arg with - | ⟨o, value⟩
  · split_ifs <;> rfl
  · dsimp only
    rcases d.set o value with e | d'
    · split_ifs <;> rfl
    · split_ifs <;> rfl

/-- Complete arguments are read on their own, and what follows is read with the draft that they
leave. -/
theorem readArguments_append (h : OptionPosition pre) (d : Draft) (args : List Text) :
    readArguments d (pre ++ args) = readArguments d pre >>= resume args := by
  have hresume : ∀ {rest : List Text},
      (∀ d, readArguments d (rest ++ args) = readArguments d rest >>= resume args) →
      ∀ r, resume (rest ++ args) r = resume rest r >>= resume args := by
    intro rest ih r
    rcases r with - | - | d
    · rfl
    · rfl
    · exact ih d
  induction h generalizing d with
  | start => rfl
  | @single arg rest hname hend _ ih =>
    rw [List.cons_append, readArguments_cons hname hend d (rest ++ args),
      readArguments_cons hname hend d rest, bind_assoc]
    exact bind_congr (hresume ih)
  | pair hname _ ih =>
    rw [List.cons_append, List.cons_append, readArguments_named hname, readArguments_named hname,
      bind_assoc]
    exact bind_congr ih

/-! ### The two ways compared -/

/-- What a command line comes to: what it asks for, or the message that is printed. -/
def answer (color : Bool) (args : List Text) : Except String (Request Invocation) :=
  (readCommand color args).mapError UsageError.message

/-- Arguments that read alike ask for the same. -/
theorem readCommand_congr {color : Bool} {args args' : List Text}
    (h : readArguments (.start color) args = readArguments (.start color) args') :
    readCommand color args = readCommand color args' := by
  unfold readCommand
  rw [h]

/-- The single argument is read as the two arguments with the value that it leaves. -/
theorem readCommand_inline (color : Bool) (h : OptionPosition pre) (o : ValueOption) (v : Text)
    (args : List Text) :
    readCommand color (pre ++ (o.opening ++ v) :: args)
      = readCommand color (pre ++ o.long :: dropOpenings o.opening v :: args) := by
  apply readCommand_congr
  rw [readArguments_append h, readArguments_append h]
  refine bind_congr fun r => ?_
  rcases r with - | - | d
  · rfl
  · rfl
  · exact readArguments_inline.trans (readArguments_named o.ofArgument?_long).symm

/-- What begins with an opening is no limit. -/
theorem readLimit?_of_opening_prefix (h : ValueOption.maxBag.opening <+: v) :
    readLimit? v = none := by
  obtain ⟨rest, rfl⟩ := h
  rfl

/-- The message tells which value was refused. -/
theorem invalidLimit_message_inj {v v' : Text} :
    (UsageError.invalidLimit v).message = (UsageError.invalidLimit v').message ↔ v = v' := by
  unfold UsageError.message
  rw [String.append_left_inj, String.append_right_inj, String.ofList_inj]

/-- A limit and then a word: what is answered. -/
theorem answer_limit (v : Text) :
    answer false [ValueOption.maxBag.long, v, ValueOption.dictionary.long, ['d'], ['w']] =
      match readLimit? v with
      | some n =>
        .ok (.run ⟨['d'], .words [['w']], { Options.default with maxBag := some n }, false⟩)
      | none => .error (UsageError.invalidLimit v).message := by
  unfold answer readCommand
  rw [readArguments_named (ValueOption.ofArgument?_long _)]
  unfold Draft.set
  dsimp only
  rcases readLimit? v with - | n
  · rfl
  · rfl

/-- A value that begins with the opening of its option is told apart from any other. -/
theorem exists_answer_ne {v v' : Text} (hopens : o.opening <+: v) (hne : v ≠ v') :
    ∃ args, answer false (o.long :: v :: args) ≠ answer false (o.long :: v' :: args) := by
  rcases o with - | - | -
  · have hword : ∀ v, answer false [ValueOption.dictionary.long, v, ['w']]
        = .ok (.run ⟨v, .words [['w']], .default, false⟩) := fun v => rfl
    refine ⟨[['w']], fun h => hne ?_⟩
    rw [hword, hword] at h
    cases h
    rfl
  · have hfile : ∀ v,
        answer false [ValueOption.sentences.long, v, ValueOption.dictionary.long, ['d']]
          = .ok (.run ⟨['d'], .benchmark v, .default, false⟩) := fun v => rfl
    refine ⟨[ValueOption.dictionary.long, ['d']], fun h => hne ?_⟩
    rw [hfile, hfile] at h
    cases h
    rfl
  · -- the value is no number, so there is a message that names it
    refine ⟨[ValueOption.dictionary.long, ['d'], ['w']], fun h => hne ?_⟩
    rw [answer_limit, answer_limit, readLimit?_of_opening_prefix hopens] at h
    rcases hn : readLimit? v' with - | n
    · rw [hn] at h
      exact invalidLimit_message_inj.1 (Except.error.inj h)
    · rw [hn] at h
      cases h

/-- **The two ways agree but for a repeated opening.**  A single argument is read as two with the
value that it leaves; so it can stand for the two arguments with the value itself, in every
command line, if and only if the value does not begin with the opening of the option. -/
theorem inline_agrees_iff (o : ValueOption) (v : Text) :
    (∀ color pre args, OptionPosition pre →
      readCommand color (pre ++ (o.opening ++ v) :: args)
        = readCommand color (pre ++ o.long :: dropOpenings o.opening v :: args)) ∧
    ((∀ color pre args, OptionPosition pre →
      answer color (pre ++ o.long :: v :: args)
        = answer color (pre ++ (o.opening ++ v) :: args)) ↔ ¬o.opening <+: v) := by
  refine ⟨fun color pre args h => readCommand_inline color h o v args, ⟨fun hall hopens => ?_,
    fun hno color pre args h => ?_⟩⟩
  · have hne : v ≠ dropOpenings o.opening v := fun heq =>
      (ValueOption.dropOpenings_eq_self_iff o.opening_ne_nil).1 heq.symm hopens
    obtain ⟨args, hargs⟩ := exists_answer_ne hopens hne
    have hinline : answer false ((o.opening ++ v) :: args)
        = answer false (o.long :: dropOpenings o.opening v :: args) :=
      congrArg (·.mapError UsageError.message) (readCommand_inline false .start o v args)
    exact hargs ((hall false [] args .start).trans hinline)
  · unfold answer
    rw [readCommand_inline color h, ValueOption.dropOpenings_eq_self hno]

/-- Behind a limit and before a word both ways give the same dictionary. -/
theorem inline_agrees_behindLimit :
    let limit := ["--max-bag", "4"].map String.toList
    OptionPosition limit ∧ ¬ValueOption.dictionary.opening <+: "d.dict".toList ∧
      answer false (limit ++ "--dict".toList :: "d.dict".toList :: ["w".toList])
        = answer false (limit ++ "--dict=d.dict".toList :: ["w".toList]) := by
  intro limit
  have hlimit : OptionPosition limit := .pair (o := .maxBag) rfl .start
  have hvalue : ¬ValueOption.dictionary.opening <+: "d.dict".toList := by decide
  exact ⟨hlimit, hvalue,
    (inline_agrees_iff .dictionary "d.dict".toList).2.2 hvalue false limit ["w".toList] hlimit⟩

/-- A dictionary file whose name begins with the opening is another file in a single argument. -/
theorem inline_repeatedOpening :
    answer false (["--dict", "--dict=d.dict", "w"].map String.toList)
        = .ok (.run ⟨"--dict=d.dict".toList, .words ["w".toList], .default, false⟩) ∧
      answer false (["--dict=--dict=d.dict", "w"].map String.toList)
        = .ok (.run ⟨"d.dict".toList, .words ["w".toList], .default, false⟩) := by
  have hinline := readCommand_inline false .start .dictionary "--dict=d.dict".toList ["w".toList]
  have hdrop : dropOpenings ValueOption.dictionary.opening "--dict=d.dict".toList
      = "d.dict".toList :=
    (ValueOption.dropOpenings_append ValueOption.dictionary.opening_ne_nil "d.dict".toList).trans
      (ValueOption.dropOpenings_eq_self (by decide))
  refine ⟨rfl, ?_⟩
  rw [hdrop] at hinline
  exact congrArg (·.mapError UsageError.message) hinline

end LinkGrammar.Cli
