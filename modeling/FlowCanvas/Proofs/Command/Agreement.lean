import FlowCanvas.Command.Run
import FlowCanvas.Proofs.Command.Flag

/-!
# Two commands that agree

One command lists the defects of a specification, another one writes its diagram and refuses to if
there are any.  They read the same input, look for defects in the same way, and say on their own
what is wrong.  A writer who has seen the first one succeed can rely on the second one: both end in
the same way on every input, and show the same defects.

The commands look at different specifications, since the second one may have been told a theme; but
a theme has no part in the defects (`defects_inTheme`).  So what each of them comes to can be said
in terms of what the input holds: no specification, one with defects, or a sound one.

## Main definitions

* `GraphSpec.inTheme` — a specification with another theme, if there is one.
* `Agree` — the outcomes of the two commands are as what the input holds demands.

## Main results

* `validateOutcome_of_defects`, `compileOutcome_of_defects` and their like — each of the commands on
  each kind of input.
* `agree_validate_compile` — **the two commands agree on every input.**
-/

namespace FlowCanvas

/-! ### Lines -/

theorem unlines_singleton (line : String) : Outcome.unlines [line] = line ++ "\n" := by
  simp [Outcome.unlines, String.join]

theorem stderr_failure (messages : List String) :
    (Outcome.failure messages).stderr = Outcome.unlines (messages.map ("ERROR: " ++ ·)) := rfl

theorem stderr_failure_singleton (message : String) :
    (Outcome.failure [message]).stderr = "ERROR: " ++ message ++ "\n" := by
  rw [stderr_failure, List.map_singleton, unlines_singleton]

theorem message_unsound (defects : List Defect) :
    (Failure.unsound defects).message = "graph spec has " ++ toString defects.length
      ++ " defect(s): " ++ "; ".intercalate (defects.map Defect.message) := rfl

/-- The line that says how many defects there are, and which. -/
theorem stderr_failure_unsound (defects : List Defect) :
    (Outcome.failure [(Failure.unsound defects).message]).stderr
      = "ERROR: graph spec has " ++ toString defects.length ++ " defect(s): "
        ++ "; ".intercalate (defects.map Defect.message) ++ "\n" := by
  have hwords : "ERROR: graph spec has " = "ERROR: " ++ "graph spec has " := by decide
  rw [stderr_failure_singleton, message_unsound, hwords]
  simp only [String.append_assoc]

/-! ### The commands on each kind of input -/

/-- A specification with another theme, if there is one. -/
def GraphSpec.inTheme (theme : Option Theme) (spec : GraphSpec) : GraphSpec :=
  match theme with
  | none => spec
  | some theme => { spec with theme := theme }

/-- A theme has no part in the defects. -/
theorem defects_inTheme (theme : Option Theme) (spec : GraphSpec) :
    (spec.inTheme theme).defects = spec.defects := by
  cases theme <;> rfl

section Outcomes

variable {input : Input} {spec : GraphSpec}

theorem validateOutcome_of_failure {f : Failure} (h : Input.text input >>= readSpec = .error f) :
    validateOutcome input = .failure [f.message] := by
  unfold validateOutcome
  rw [h]

theorem validateOutcome_of_sound (h : Input.text input >>= readSpec = .ok spec)
    (hsound : spec.defects = []) : validateOutcome input = .success ["ok"] := by
  unfold validateOutcome
  rw [h]
  simp only [hsound]

theorem validateOutcome_of_defects (h : Input.text input >>= readSpec = .ok spec)
    (hdefects : spec.defects ≠ []) :
    validateOutcome input = .failure (spec.defects.map Defect.message) := by
  unfold validateOutcome
  rw [h]
  cases hd : spec.defects with
  | nil => exact absurd hd hdefects
  | cons d ds => simp only [hd]

variable (c : CompileChoices)

/-- What the command that writes diagrams makes of a specification. -/
theorem compileOutcome_of_ok (h : Input.text input >>= readSpec = .ok spec) :
    compileOutcome c input
      = .ofExcept (((spec.inTheme c.theme).compile c.rendering c.check).map ([·])) := by
  unfold compileOutcome
  rw [h]
  rfl

theorem compileOutcome_of_failure {f : Failure} (h : Input.text input >>= readSpec = .error f) :
    compileOutcome c input = .failure [f.message] := by
  unfold compileOutcome
  rw [h]
  rfl

theorem compileOutcome_of_sound (h : Input.text input >>= readSpec = .ok spec)
    (hsound : c.check = false ∨ spec.defects = []) :
    compileOutcome c input = .success [(spec.inTheme c.theme).source c.rendering] := by
  have hcompile : (spec.inTheme c.theme).compile c.rendering c.check
      = .ok ((spec.inTheme c.theme).source c.rendering) := by
    unfold GraphSpec.compile GraphSpec.soundSource
    rcases hsound with hcheck | hdefects
    · simp [hcheck]
    · simp [defects_inTheme, hdefects]
  rw [compileOutcome_of_ok c h, hcompile]
  rfl

theorem compileOutcome_of_defects (h : Input.text input >>= readSpec = .ok spec)
    (hcheck : c.check = true) (hdefects : spec.defects ≠ []) :
    compileOutcome c input = .failure [(Failure.unsound spec.defects).message] := by
  have hcompile : (spec.inTheme c.theme).compile c.rendering c.check
      = .error (.unsound spec.defects) := by
    unfold GraphSpec.compile GraphSpec.soundSource
    rw [if_pos hcheck, defects_inTheme]
    cases hd : spec.defects with
    | nil => exact absurd hd hdefects
    | cons d ds => rfl
  rw [compileOutcome_of_ok c h, hcompile]
  rfl

end Outcomes

/-! ### Agreement -/

/-- Given what the input holds, the outcome of listing the defects agrees with that of writing the
diagram of a specification without defects, and this with that of writing it in any case. -/
structure Agree (held : Except Failure GraphSpec) (listed checked unchecked : Outcome) : Prop where
  exit_eq : listed.exit = checked.exit
  exit_le_one : checked.exit = 0 ∨ checked.exit = 1
  /-- Both succeed exactly on specifications without defects. -/
  exit_eq_zero_iff : checked.exit = 0 ↔ ∃ spec, held = .ok spec ∧ spec.defects = []
  stdout_eq : checked.exit = 1 → listed.stdout = "" ∧ checked.stdout = ""
  stderr_eq : checked.exit = 0 → listed.stderr = "" ∧ checked.stderr = ""
  /-- Both say in the same words why there is no specification. -/
  of_failure : ∀ f, held = .error f →
    listed.stderr = "ERROR: " ++ f.message ++ "\n" ∧ checked.stderr = listed.stderr
  /-- The defects are listed one by one, or all of them in a line with their number. -/
  of_defects : ∀ spec, held = .ok spec → spec.defects ≠ [] →
    listed.stderr = Outcome.unlines (spec.defects.map fun d => "ERROR: " ++ d.message)
      ∧ checked.stderr = "ERROR: graph spec has " ++ toString spec.defects.length ++ " defect(s): "
        ++ "; ".intercalate (spec.defects.map Defect.message) ++ "\n"
  unchecked_eq : checked.exit = 0 → unchecked.exit = 0 ∧ unchecked.stdout = checked.stdout

/-- The outcomes of the commands agree on every input. -/
theorem agree_outcomes (input : Input) {c : CompileChoices} (hcheck : c.check = true) :
    Agree (Input.text input >>= readSpec) (validateOutcome input) (compileOutcome c input)
      (compileOutcome { c with check := false } input) := by
  cases h : Input.text input >>= readSpec with
  | error f =>
    rw [validateOutcome_of_failure h, compileOutcome_of_failure c h]
    exact {
      exit_eq := rfl
      exit_le_one := .inr rfl
      exit_eq_zero_iff := ⟨fun h0 => absurd h0 Nat.one_ne_zero, fun ⟨_, hok, _⟩ => nomatch hok⟩
      stdout_eq := fun _ => ⟨rfl, rfl⟩
      stderr_eq := fun h0 => absurd h0 Nat.one_ne_zero
      of_failure := fun f' hf' => by
        cases hf'
        exact ⟨stderr_failure_singleton _, rfl⟩
      of_defects := fun _ hok => nomatch hok
      unchecked_eq := fun h0 => absurd h0 Nat.one_ne_zero }
  | ok spec =>
    by_cases hsound : spec.defects = []
    · rw [validateOutcome_of_sound h hsound, compileOutcome_of_sound c h (.inr hsound),
        compileOutcome_of_sound _ h (.inl rfl)]
      exact {
        exit_eq := rfl
        exit_le_one := .inl rfl
        exit_eq_zero_iff := ⟨fun _ => ⟨spec, rfl, hsound⟩, fun _ => rfl⟩
        stdout_eq := fun h1 => absurd h1 Nat.zero_ne_one
        stderr_eq := fun _ => ⟨rfl, rfl⟩
        of_failure := fun _ hf => nomatch hf
        of_defects := fun spec' hok hdefects => by
          cases hok
          exact absurd hsound hdefects
        unchecked_eq := fun _ => ⟨rfl, rfl⟩ }
    · rw [validateOutcome_of_defects h hsound, compileOutcome_of_defects c h hcheck hsound]
      exact {
        exit_eq := rfl
        exit_le_one := .inr rfl
        exit_eq_zero_iff := ⟨fun h0 => absurd h0 Nat.one_ne_zero, fun ⟨spec', hok, hdefects⟩ => by
          cases hok
          exact absurd hdefects hsound⟩
        stdout_eq := fun _ => ⟨rfl, rfl⟩
        stderr_eq := fun h0 => absurd h0 Nat.one_ne_zero
        of_failure := fun _ hf => nomatch hf
        of_defects := fun spec' hok _ => by
          cases hok
          refine ⟨?_, stderr_failure_unsound spec.defects⟩
          rw [stderr_failure, List.map_map]
          rfl
        unchecked_eq := fun h0 => absurd h0 Nat.one_ne_zero }

/-- **Listing defects and writing a diagram agree.**  Take any arguments with which the program is
asked to write a diagram that has no defects, and any with which it is asked to list the defects of
the same input.  Whatever that input consists of, or even if it cannot be read, both runs end with
the same code, zero or one, print nothing as their result if they fail and nothing about failures if
they do not, and say the same about what is wrong; and if the diagram is written, then so it is with
the flag that lets it be written whatever its defects. -/
theorem agree_validate_compile {arguments listArguments : List String} {c : CompileChoices}
    (hcompile : Request.ofArguments ("compile" :: arguments) = .ok (.compile c))
    (hcheck : c.check = true)
    (hvalidate : Request.ofArguments ("validate" :: listArguments) = .ok (.validate c.file))
    (inputs : Option String → Input) :
    Agree (Input.text (inputs c.file) >>= readSpec)
      ((Plan.ofArguments ("validate" :: listArguments)).run inputs)
      ((Plan.ofArguments ("compile" :: arguments)).run inputs)
      ((Plan.ofArguments ("compile" :: "--no-validate" :: arguments)).run inputs) := by
  have hunchecked := ofArguments_compile_noValidate hcompile hcheck
  unfold Plan.ofArguments
  rw [hcompile, hvalidate, hunchecked]
  exact agree_outcomes (inputs c.file) hcheck

theorem eq_ok_of_toOption {ε α : Type} {x : Except ε α} {a : α} (h : x.toOption = some a) :
    x = .ok a := by
  cases x with
  | error e => cases h
  | ok b =>
    cases h
    rfl

/-- A file with two nodes of one id and an edge to a node that is not there. -/
def unsoundInput : Input :=
  .ok ("\x7b\"nodes\":[\x7b\"id\":\"A\",\"label\":\"a\"\x7d,\x7b\"id\":\"A\",\"label\":\"b\"\x7d],"
    ++ "\"edges\":[\x7b\"from\":\"A\",\"to\":\"B\"\x7d]\x7d").toUTF8

/-- Both commands on such a file, the second one with a width, a theme and a hook. -/
theorem agree_on_unsoundInput :
    Request.ofArguments ["compile", "-w", "12", "--theme=dark", "g.json", "--click-hook", "go"]
        = .ok (.compile ⟨some "g.json", ⟨12, "go", {}⟩, some .dark, true⟩)
      ∧ Request.ofArguments ["validate", "g.json"] = .ok (.validate (some "g.json"))
      ∧ ((Plan.ofArguments ["validate", "g.json"]).run fun _ => unsoundInput).stderr
        = "ERROR: duplicate node id: \"A\"\nERROR: edge 0 references unknown target node \"B\"\n"
      ∧ ((Plan.ofArguments
          ["compile", "-w", "12", "--theme=dark", "g.json", "--click-hook", "go"]).run
            fun _ => unsoundInput).stderr
        = "ERROR: graph spec has 2 defect(s): duplicate node id: \"A\"; "
          ++ "edge 0 references unknown target node \"B\"\n" := by
  have hchoices : (compileSignature.read
      ["-w", "12", "--theme=dark", "g.json", "--click-hook", "go"]).toOption
        = some (some ⟨some "g.json", ⟨12, "go", {}⟩, some .dark, true⟩) := by
    decide +kernel
  have hcompile : Request.ofArguments
      ["compile", "-w", "12", "--theme=dark", "g.json", "--click-hook", "go"]
        = .ok (.compile ⟨some "g.json", ⟨12, "go", {}⟩, some .dark, true⟩) :=
    ofArguments_compile_iff.mpr (eq_ok_of_toOption hchoices)
  have hfile : (validateSignature.read ["g.json"]).toOption = some (some (some "g.json")) := by
    decide +kernel
  have hvalidate : Request.ofArguments ["validate", "g.json"] = .ok (.validate (some "g.json")) :=
    ofArguments_validate_iff.mpr (eq_ok_of_toOption hfile)
  have hagree := agree_validate_compile hcompile rfl hvalidate fun _ => unsoundInput
  have hdefects : ((Input.text unsoundInput >>= readSpec).toOption.map GraphSpec.defects)
      = some [.duplicateId "A", .unknownTarget 0 "B"] := by
    decide +kernel
  obtain ⟨spec, hspec, hdefects⟩ := Option.map_eq_some_iff.mp hdefects
  have hboth := hagree.of_defects spec (eq_ok_of_toOption hspec) (by simp [hdefects])
  rw [hdefects] at hboth
  refine ⟨hcompile, hvalidate, hboth.1.trans ?_, hboth.2.trans ?_⟩
  · decide +kernel
  · decide +kernel

end FlowCanvas
