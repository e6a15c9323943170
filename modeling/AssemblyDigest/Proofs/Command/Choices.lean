import AssemblyDigest.Command.Run
import AssemblyDigest.Proofs.Config.RoundTrip

/-! # Options in any order

A `scan` command is a list of options, each written in one of two ways. Reading the arguments takes
one option after the other (`AssemblyDigest.Command.Written.readScan_eq`). An option is taken if its
value is accepted and its slot is free; it fills this slot and leaves the others alone
(`AssemblyDigest.Command.Request.take_eq`). Options for different slots may therefore be taken in
either order, and of two options for one slot neither order takes both. So neither the order of the
options nor the way they are written matters (`AssemblyDigest.Command.Written.readScan_of_perm`).
-/

namespace AssemblyDigest

namespace Command

/-- An option of a `scan` command, with its value if it takes one. -/
inductive Choice where
  | print
  | setting (name : Setting) (value : Text)
  deriving DecidableEq, Repr

namespace Choice

/-- The slot that an option fills: that of its setting, or the one for printing. -/
def slot : Choice → Option Setting
  | .print => none
  | .setting name _ => some name

/-- Whether the value of an option is accepted: a path is not empty, and a format is known. -/
def accepted : Choice → Bool
  | .setting .root value => !value.isEmpty
  | .setting .output value => !value.isEmpty
  | .setting .config value => !value.isEmpty
  | .setting .format value => (ReportFormat.ofName? value).isSome
  | _ => true

/-- The value that an option gives to a setting. -/
def value? (name : Setting) : Choice → Option Text
  | .print => none
  | .setting other value => if other = name then some value else none

/-- A choice with a value for a setting fills the slot of that setting. -/
theorem slot_of_value? {choice : Choice} {name : Setting} {value : Text}
    (given : choice.value? name = some value) : choice.slot = some name := by
  cases choice with
  | print => cases given
  | setting other otherValue =>
      rw [value?, Option.ite_none_right_eq_some] at given
      exact congrArg some given.1

/-- The ways to write an option. A separate value must not look like an option. -/
inductive Written : Choice → List Text → Prop
  | print : Written .print ["--stdout".toList]
  | separate {name : Setting} {value : Text} (plain : isValue value = true) :
      Written (.setting name value) ['-' :: '-' :: name.name, value]
  | attached {name : Setting} {value : Text} :
      Written (.setting name value) ['-' :: '-' :: (name.name ++ '=' :: value)]

end Choice

/-- Options with the arguments that they are written as. -/
inductive Written : List Choice → List Text → Prop
  | nil : Written [] []
  | cons {choice : Choice} {choices : List Choice} {group arguments : List Text}
      (first : choice.Written group) (later : Written choices arguments) :
      Written (choice :: choices) (group ++ arguments)

/-- The value that the first of some options for a setting gives to it. -/
def valueOf? (name : Setting) (choices : List Choice) : Option Text :=
  choices.findSome? (Choice.value? name)

namespace Request

/-- The value of a setting, a format by its name. -/
def value? (request : Request) : Setting → Option Text
  | .root => request.root
  | .output => request.output
  | .config => request.config
  | .format => request.overrides.format.map ReportFormat.name
  | .scopeFile => request.overrides.scopeFile
  | .extension => request.overrides.extension
  | .language => request.overrides.language

/-- Whether a slot was not filled yet. -/
def isFree (request : Request) : Option Setting → Bool
  | none => !request.toStdout
  | some name => (request.value? name).isNone

/-- A request with the slot of an option filled. -/
def add (request : Request) : Choice → Request
  | .print => { request with toStdout := true }
  | .setting .root value => { request with root := some value }
  | .setting .output value => { request with output := some value }
  | .setting .config value => { request with config := some value }
  | .setting .format value => { request with overrides.format := ReportFormat.ofName? value }
  | .setting .scopeFile value => { request with overrides.scopeFile := some value }
  | .setting .extension value => { request with overrides.extension := some value }
  | .setting .language value => { request with overrides.language := some value }

/-- A request after one more option, unless this is refused. -/
def take (request : Request) : Choice → Option Request
  | .print => request.print
  | .setting name value => request.set name value

end Request

/-- A slot is filled once; a second value ends the reading. -/
theorem fill_bind {α β : Type} (slot : Option α) (value : α) (next : Option α → Option β) :
    (fill slot value >>= next) = if slot.isNone then next (some value) else none := by
  cases slot <;> rfl

/-- A slot for a path is filled once, and not with an empty path. -/
theorem fillPath_bind {β : Type} (slot : Option Text) (path : Text)
    (next : Option Text → Option β) :
    (fillPath slot path >>= next) =
      if !path.isEmpty && slot.isNone then next (some path) else none := by
  cases slot <;> cases path <;> rfl

/-- A name that is known is the name of its format. -/
theorem map_name_ofName? {value : Text} (known : (ReportFormat.ofName? value).isSome) :
    (ReportFormat.ofName? value).map ReportFormat.name = some value := by
  obtain ⟨format, found⟩ := Option.isSome_iff_exists.mp known
  rw [found, ReportFormat.ofName?_eq_some_iff.mp found]
  rfl

namespace Request

variable (request : Request)

/-- An option is taken exactly if its value is accepted and its slot is free. -/
theorem take_eq (choice : Choice) :
    request.take choice =
      if choice.accepted && request.isFree choice.slot then some (request.add choice)
      else none := by
  cases choice with
  | print =>
      cases printing : request.toStdout <;>
        simp [take, print, Choice.accepted, Choice.slot, isFree, add, printing]
  | setting name value =>
      cases name with
      | format =>
          cases known : ReportFormat.ofName? value <;>
            simp [take, set, fill_bind, Choice.accepted, Choice.slot, isFree, value?, add, known]
      | root | output | config =>
          simp only [take, set, fillPath_bind, Choice.accepted, Choice.slot, isFree, value?, add]
          rfl
      | scopeFile | extension | language =>
          simp only [take, set, fill_bind, Choice.accepted, Choice.slot, isFree, value?, add,
            Bool.true_and]

/-- An option gives its value to its own setting and leaves the others alone. -/
theorem value?_add {choice : Choice} (accepted : choice.accepted = true) (name : Setting) :
    (request.add choice).value? name = (choice.value? name).or (request.value? name) := by
  cases choice with
  | print => cases name <;> rfl
  | setting other value =>
      cases other with
      | format =>
          cases name with
          | format => exact map_name_ofName? accepted
          | _ => rfl
      | _ => cases name <;> rfl

/-- Output is asked for by the choice to print, or was asked for before. -/
theorem toStdout_add (choice : Choice) :
    (request.add choice).toStdout = (decide (choice = .print) || request.toStdout) := by
  cases choice with
  | print => rfl
  | setting name value => cases name <;> rfl

/-- An option fills its own slot and no other. -/
theorem isFree_add {choice : Choice} (accepted : choice.accepted = true) (slot : Option Setting) :
    (request.add choice).isFree slot = (decide (choice.slot ≠ slot) && request.isFree slot) := by
  cases slot with
  | none =>
      rw [isFree, toStdout_add]
      cases choice <;> simp [Choice.slot, isFree]
  | some name =>
      rw [isFree, value?_add request accepted]
      cases choice with
      | print => rfl
      | setting other value =>
          by_cases same : other = name <;> simp [Choice.value?, Choice.slot, isFree, same]

/-- Options for different slots may be added in either order. -/
theorem add_comm {first second : Choice} (different : first.slot ≠ second.slot) :
    (request.add first).add second = (request.add second).add first := by
  cases first with
  | print =>
      cases second with
      | print => exact (different rfl).elim
      | setting name value => cases name <;> rfl
  | setting name value =>
      cases second with
      | print => cases name <;> rfl
      | setting other otherValue =>
          cases name <;> cases other <;> first | rfl | exact (different rfl).elim

/-- Two options are taken one after the other exactly if each of them could be taken alone and they
are for different slots. -/
theorem take_bind_take (first second : Choice) :
    (request.take first).bind (·.take second) =
      if (first.accepted = true ∧ request.isFree first.slot = true) ∧
          (second.accepted = true ∧ request.isFree second.slot = true) ∧ first.slot ≠ second.slot
      then some ((request.add first).add second) else none := by
  by_cases ready : first.accepted = true ∧ request.isFree first.slot = true
  · have taken : request.take first = some (request.add first) := by
      rw [take_eq, ready.1, ready.2]
      rfl
    rw [taken, Option.bind_some, take_eq, isFree_add request ready.1]
    simp [ready, and_left_comm, and_comm]
  · have refused : request.take first = none := by
      rw [take_eq]
      simpa using ready
    rw [refused, Option.bind_none, if_neg fun both => ready both.1]

/-- Two options may be taken in either order. -/
theorem take_comm (first second : Choice) :
    (request.take first).bind (·.take second) = (request.take second).bind (·.take first) := by
  rw [take_bind_take, take_bind_take]
  by_cases different : first.slot ≠ second.slot
  · rw [add_comm request different]
    refine if_congr ?_ rfl rfl
    constructor
    · exact fun ⟨ready, readyToo, apart⟩ => ⟨readyToo, ready, apart.symm⟩
    · exact fun ⟨ready, readyToo, apart⟩ => ⟨readyToo, ready, apart.symm⟩
  · rw [if_neg fun ready => different ready.2.2, if_neg fun ready => different ready.2.2.symm]

/-- Options may be taken in any order. -/
theorem foldlM_take_of_perm {choices others : List Choice} (arranged : choices.Perm others) :
    choices.foldlM take request = others.foldlM take request := by
  induction arranged generalizing request with
  | nil => rfl
  | cons choice _ ih => rw [List.foldlM_cons, List.foldlM_cons, funext ih]
  | swap first second rest =>
      simp only [List.foldlM_cons, ← bind_assoc]
      exact congrArg (· >>= rest.foldlM take) (take_comm request second first)
  | trans _ _ ih ihLater => rw [ih, ihLater]

/-- Accepted options for different free slots are all taken, and each setting has the value that it
had or that an option gives to it. -/
theorem exists_foldlM_take {choices : List Choice}
    (accepted : ∀ choice ∈ choices, choice.accepted = true)
    (distinct : (choices.map Choice.slot).Nodup)
    (free : ∀ choice ∈ choices, request.isFree choice.slot = true) :
    ∃ taken, choices.foldlM take request = some taken ∧
      (∀ name, taken.value? name = (request.value? name).or (valueOf? name choices)) ∧
      taken.toStdout = (request.toStdout || decide (.print ∈ choices)) := by
  induction choices generalizing request with
  | nil => exact ⟨request, rfl, fun name => by simp [valueOf?], by simp⟩
  | cons choice choices ih =>
      have acceptedFirst := accepted choice List.mem_cons_self
      have freeFirst := free choice List.mem_cons_self
      obtain ⟨apart, distinctLater⟩ := List.nodup_cons.mp distinct
      have freeLater : ∀ later ∈ choices, (request.add choice).isFree later.slot = true := by
        intro later member
        have different : choice.slot ≠ later.slot := fun same =>
          apart (same ▸ List.mem_map_of_mem member)
        rw [isFree_add request acceptedFirst, free later (List.mem_cons_of_mem _ member),
          Bool.and_true]
        exact decide_eq_true different
      obtain ⟨taken, run, values, printing⟩ := ih (request.add choice)
        (fun later member => accepted later (List.mem_cons_of_mem _ member)) distinctLater freeLater
      refine ⟨taken, ?_, fun name => ?_, ?_⟩
      · rw [List.foldlM_cons, take_eq, acceptedFirst, freeFirst]
        exact run
      · rw [values, value?_add request acceptedFirst, valueOf?, valueOf?, List.findSome?_cons]
        cases given : choice.value? name with
        | none => rfl
        | some value =>
            rw [Choice.slot_of_value? given, isFree] at freeFirst
            rw [Option.isNone_iff_eq_none.mp freeFirst]
            rfl
      · rw [printing, toStdout_add]
        simp only [List.mem_cons, eq_comm, Bool.decide_or]
        ac_rfl

end Request

/-! ### Reading arguments -/

/-- The name of a setting after two dashes asks for a value in the next argument. -/
theorem argument_opening (name : Setting) :
    Argument.of ('-' :: '-' :: name.name) = .opening name := by
  cases name <;> rfl

/-- The name of a setting after two dashes and a value after an equals sign are complete. -/
theorem argument_complete (name : Setting) (value : Text) :
    Argument.of ('-' :: '-' :: (name.name ++ '=' :: value)) = .complete name value := by
  cases name <;> rfl

/-- The arguments of an option are read as this option. -/
theorem Choice.Written.readScan_append {choice : Choice} {group : List Text}
    (written : choice.Written group) (request : Request) (rest : List Text) :
    readScan request (group ++ rest) = (request.take choice).bind (readScan · rest) := by
  cases written with
  | print => rfl
  | separate plain =>
      rw [List.cons_append, List.singleton_append, readScan, argument_opening]
      exact if_pos plain
  | attached =>
      rw [List.singleton_append, readScan, argument_complete]
      rfl

/-- The arguments of options are read by taking the options one after the other. -/
theorem Written.readScan_eq {choices : List Choice} {arguments : List Text}
    (written : Written choices arguments) (request : Request) :
    readScan request arguments = (choices.foldlM Request.take request).bind Request.finish := by
  induction written generalizing request with
  | nil => rw [readScan]; rfl
  | cons first later ih =>
      rw [first.readScan_append, List.foldlM_cons, funext ih]
      exact (Option.bind_assoc _ _ _).symm

/-- The same options are read alike, in whatever order and way they are written. -/
theorem Written.readScan_of_perm {choices others : List Choice}
    {arguments otherArguments : List Text}
    (written : Written choices arguments) (writtenToo : Written others otherArguments)
    (arranged : choices.Perm others) (request : Request) :
    readScan request arguments = readScan request otherArguments := by
  rw [written.readScan_eq, writtenToo.readScan_eq, request.foldlM_take_of_perm arranged]

end Command

end AssemblyDigest
