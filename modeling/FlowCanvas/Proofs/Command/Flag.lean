import FlowCanvas.Command.Request
import FlowCanvas.Proofs.Json.Lexeme
import Mathlib.Logic.Function.Conjugate

/-!
# A flag more

The arguments of a command are read one by one into a record of choices.  A flag that has not been
given can be put before all other arguments: they are read as before, and the choices that come out
are the same but for what the flag changes.

Reading goes on in steps, each of which looks at the pending argument and takes another one.  A step
minds neither that the flag has been given before nor what the flag has changed (`Carries`), unless
the flag is given in the step itself; and once given, the flag cannot be taken back.

## Main definitions

* `Signature.HasFlag` — an option is a flag whose effect has nothing to do with the other options.
* `Progress.behind` — the same progress behind the flag.
* `Carries` — a step leads to the same progress behind the flag.

## Main results

* `carries_settle`, `carries_takeSetting`, `carries_takeWord` — the steps of reading.
* `read_cons_flag` — **a flag that is not given can be put before the other arguments.**
* `ofArguments_compile_noValidate` — so it is for the flag of the command that writes diagrams.
-/

namespace FlowCanvas

open Json (bind_eq_ok)

variable {ρ : Type}

/-- What the option changes has nothing to do with another change. -/
def Effect.Commutes (g : ρ → ρ) : Effect ρ → Prop
  | .flag set => Function.Commute set g
  | .value set => ∀ value change, set value = .ok change → Function.Commute change g

/-- The option is a flag that makes a change, the only one with its label, and no other choice has
to do with that change. -/
structure Signature.HasFlag (sig : Signature ρ) (flag : Setting ρ) (g : ρ → ρ) : Prop where
  effect_eq : flag.effect = .flag g
  /-- To give the flag twice would change nothing more. -/
  idem : ∀ r, g (g r) = g r
  eq_of_label : ∀ s ∈ sig.settings, s.label = flag.label → s = flag
  operand : ∀ value, Function.Commute (sig.operand value) g
  settings : ∀ s ∈ sig.settings, s.effect.Commutes g

/-- The effect of an option that sets a value it has read. -/
theorem commutes_of {β : Type} {name : String} {letter : Option Char} {label : String}
    {value : String → Except String β} {set : β → ρ → ρ} {g : ρ → ρ}
    (h : ∀ x, Function.Commute (set x) g) :
    (Setting.of name letter label value set).effect.Commutes g := by
  intro text change hchange
  change (value text).map set = .ok change at hchange
  cases hvalue : value text with
  | error reason =>
    rw [hvalue] at hchange
    cases hchange
  | ok x =>
    rw [hvalue] at hchange
    cases hchange
    exact h x

/-! ### Looking at the pending argument -/

section Settle

variable (sig : Signature ρ) {p : Progress ρ}

theorem settle_none (h : p.pending = .none) : p.settle sig = .ok p := by
  unfold Progress.settle
  rw [h]

theorem settle_operand {value : String} (h : p.pending = .operand value) :
    p.settle sig = if value.isEmpty then .error (.missingValue sig.operandLabel)
      else .ok { p with choices := sig.operand value p.choices, pending := .none } := by
  unfold Progress.settle
  rw [h]

theorem settle_option_none {s : Setting ρ} {set : String → Except String (ρ → ρ)}
    (h : p.pending = .option s set none) : p.settle sig = .error (.missingValue s.label) := by
  unfold Progress.settle
  rw [h]

theorem settle_option_some {s : Setting ρ} {set : String → Except String (ρ → ρ)} {value : String}
    (h : p.pending = .option s set (some value)) {q : Progress ρ} :
    p.settle sig = .ok q
      ↔ p.given.contains s.label = false ∧ ∃ change, set value = .ok change
        ∧ q = p.choose s change := by
  unfold Progress.settle
  rw [h]
  by_cases hgiven : s.label ∈ p.given
  · simp [hgiven]
  · cases hset : set value with
    | error reason => simp [hgiven, hset]
    | ok change => simp [hgiven, hset, eq_comm]

end Settle

/-! ### Progress behind the flag -/

/-- A pending option is not the flag, and has nothing to do with it. -/
def Pending.Fits (flag : Setting ρ) (g : ρ → ρ) : Pending ρ → Prop
  | .option s set _ => s.label ≠ flag.label ∧ (Effect.value set).Commutes g
  | _ => True

/-- The same progress when the flag has been given before all other arguments. -/
def Progress.behind (flag : Setting ρ) (g : ρ → ρ) (p : Progress ρ) : Progress ρ :=
  { p with choices := g p.choices, given := p.given ++ [flag.label] }

/-- Whether another option has been given does not depend on the flag. -/
theorem contains_behind {flag : Setting ρ} {g : ρ → ρ} (p : Progress ρ) {s : Setting ρ}
    (hs : s.label ≠ flag.label) :
    (p.behind flag g).given.contains s.label = p.given.contains s.label := by
  unfold Progress.behind
  simp [hs]

/-- A step from one progress to another can be taken behind the flag too, unless the flag has been
given by then. -/
structure Carries (flag : Setting ρ) (g : ρ → ρ)
    (step : Progress ρ → Except Misuse (Progress ρ)) (p q : Progress ρ) : Prop where
  fits : q.pending.Fits flag g
  /-- What the flag has changed is not taken back. -/
  keeps : g p.choices = p.choices → g q.choices = q.choices
  follows : g q.choices = q.choices ∨ step (p.behind flag g) = .ok (q.behind flag g)

section Steps

variable {sig : Signature ρ} {flag : Setting ρ} {g : ρ → ρ} {p q r : Progress ρ}

/-- Two steps after each other. -/
theorem Carries.bind {first second : Progress ρ → Except Misuse (Progress ρ)}
    (h : Carries flag g first p q) (h' : Carries flag g second q r) :
    Carries flag g (fun p => first p >>= second) p r := by
  refine ⟨h'.fits, fun hp => h'.keeps (h.keeps hp), ?_⟩
  rcases h.follows with hq | hfirst
  · exact .inl (h'.keeps hq)
  · refine h'.follows.imp id fun hsecond => ?_
    rw [hfirst]
    exact hsecond

/-- A step that is the same as another one behind the flag. -/
theorem Carries.congr {step step' : Progress ρ → Except Misuse (Progress ρ)}
    (h : Carries flag g step p q) (heq : step' (p.behind flag g) = step (p.behind flag g)) :
    Carries flag g step' p q :=
  ⟨h.fits, h.keeps, h.follows.imp id heq.trans⟩

/-- A step that makes no choice. -/
theorem carries_ok (f : Progress ρ → Progress ρ) (hfits : (f p).pending.Fits flag g)
    (hchoices : (f p).choices = p.choices)
    (hbehind : f (p.behind flag g) = (f p).behind flag g) :
    Carries flag g (fun p => .ok (f p)) p (f p) :=
  ⟨hfits, fun hp => by rw [hchoices, hp], .inr (congrArg _ hbehind)⟩

/-- An option that has nothing to do with the flag is chosen. -/
theorem carries_choose {s : Setting ρ} {set : ρ → ρ} (hset : Function.Commute set g)
    {step : Progress ρ → Except Misuse (Progress ρ)}
    (hstep : step (p.behind flag g) = .ok ((p.behind flag g).choose s set)) :
    Carries flag g step p (p.choose s set) := by
  refine ⟨trivial, fun hp => ?_, .inr ?_⟩
  · change g (set p.choices) = set p.choices
    rw [← hset, hp]
  · rw [hstep]
    unfold Progress.choose Progress.behind
    rw [hset]
    rfl

/-- The flag itself is given. -/
theorem carries_flag (hsig : sig.HasFlag flag g) (step : Progress ρ → Except Misuse (Progress ρ))
    (p : Progress ρ) : Carries flag g step p (p.choose flag g) :=
  ⟨trivial, fun _ => hsig.idem _, .inl (hsig.idem _)⟩

/-- The pending argument is looked at. -/
theorem carries_settle (hsig : sig.HasFlag flag g) (hp : p.pending.Fits flag g)
    (h : p.settle sig = .ok q) : Carries flag g (Progress.settle sig) p q := by
  cases hpending : p.pending with
  | none =>
    rw [settle_none sig hpending] at h
    cases h
    exact ⟨hp, id, .inr (settle_none sig hpending)⟩
  | operand value =>
    rw [settle_operand sig hpending] at h
    split at h
    · cases h
    · next hvalue =>
      cases h
      refine ⟨trivial, fun hfixed => ?_, .inr ?_⟩
      · exact ((hsig.operand value).eq _).symm.trans (congrArg _ hfixed)
      · rw [settle_operand sig (p := p.behind flag g) hpending, if_neg hvalue]
        unfold Progress.behind
        rw [(hsig.operand value).eq]
  | option s set value =>
    rw [hpending] at hp
    cases value with
    | none =>
      rw [settle_option_none sig hpending] at h
      cases h
    | some value =>
      obtain ⟨hgiven, change, hset, rfl⟩ := (settle_option_some sig hpending).mp h
      refine carries_choose (hp.2 value change hset) ?_
      rw [settle_option_some sig (p := p.behind flag g) hpending, contains_behind p hp.1]
      exact ⟨hgiven, change, hset, rfl⟩

/-- An option is taken. -/
theorem carries_takeSetting (hsig : sig.HasFlag flag g) {s : Setting ρ} (hs : s ∈ sig.settings)
    {value : Option String} (hp : p.pending.Fits flag g)
    (h : p.takeSetting sig s value = .ok q) :
    Carries flag g (fun p => p.takeSetting sig s value) p q := by
  have hcommutes := hsig.settings s hs
  cases heffect : s.effect with
  | flag set =>
    rw [heffect] at hcommutes
    cases value with
    | some value =>
      unfold Progress.takeSetting at h
      rw [heffect] at h
      cases h
    | none =>
      simp only [Progress.takeSetting, heffect] at h ⊢
      obtain ⟨r, hr, h⟩ := bind_eq_ok.mp h
      refine (carries_settle hsig hp hr).bind ?_
      split at h
      · cases h
      · next hgiven =>
        cases h
        -- Behind the flag the flag itself would be refused; but then it has been given anyway.
        by_cases hlabel : s.label = flag.label
        · obtain rfl := hsig.eq_of_label s hs hlabel
          obtain rfl : set = g := Effect.flag.inj (heffect.symm.trans hsig.effect_eq)
          exact carries_flag hsig _ r
        · refine carries_choose hcommutes ?_
          rw [contains_behind r hlabel, if_neg hgiven]
  | value set =>
    rw [heffect] at hcommutes
    have hlabel : s.label ≠ flag.label := by
      intro hlabel
      rw [hsig.eq_of_label s hs hlabel, hsig.effect_eq] at heffect
      cases heffect
    cases value with
    | none =>
      simp only [Progress.takeSetting, heffect] at h ⊢
      obtain ⟨r, hr, h⟩ := bind_eq_ok.mp h
      cases h
      exact (carries_settle hsig hp hr).bind
        (carries_ok (fun r => { r with pending := .option s set none }) ⟨hlabel, hcommutes⟩ rfl rfl)
    | some value =>
      simp only [Progress.takeSetting, heffect] at h ⊢
      obtain ⟨r, hr, h⟩ := bind_eq_ok.mp h
      have hpending : Carries flag g _ r _ :=
        carries_ok (fun r => { r with pending := .option s set (some value) }) ⟨hlabel, hcommutes⟩
          rfl rfl
      exact (carries_settle hsig hp hr).bind (hpending.bind (carries_settle hsig hpending.fits h))

/-- An operand is taken. -/
theorem carries_takeOperand (hsig : sig.HasFlag flag g) {argument : String}
    (hp : p.pending.Fits flag g) (h : p.takeOperand sig argument = .ok q) :
    Carries flag g (fun p => p.takeOperand sig argument) p q := by
  cases hoperand : p.hasOperand with
  | true =>
    rw [Progress.takeOperand, if_pos hoperand] at h
    cases h
  | false =>
    have htake : ∀ r : Progress ρ, r.hasOperand = false →
        r.takeOperand sig argument = r.settle sig >>= fun r =>
          .ok { r with pending := .operand argument, hasOperand := true } := by
      intro r hr
      rw [Progress.takeOperand, if_neg (Bool.eq_false_iff.mp hr)]
    rw [htake p hoperand] at h
    obtain ⟨r, hr, h⟩ := bind_eq_ok.mp h
    cases h
    have hcarries := (carries_settle hsig hp hr).bind
      (carries_ok (fun r => { r with pending := .operand argument, hasOperand := true }) trivial rfl
        rfl)
    exact hcarries.congr (htake (p.behind flag g) hoperand)

/-- A word is taken, as the value of the pending option or as an operand. -/
theorem carries_takeWord (hsig : sig.HasFlag flag g) {argument : String}
    (hp : p.pending.Fits flag g) (h : p.takeWord sig argument = .ok q) :
    Carries flag g (fun p => p.takeWord sig argument) p q := by
  by_cases hwaits : ∃ s set, p.pending = .option s set none
  · obtain ⟨s, set, hpending⟩ := hwaits
    have htake : ∀ r : Progress ρ, r.pending = p.pending → r.takeWord sig argument
        = .ok { r with pending := .option s set (some argument) } := by
      intro r hr
      rw [Progress.takeWord, hr, hpending]
    rw [htake p rfl] at h
    cases h
    rw [hpending] at hp
    have hcarries : Carries flag g _ p _ :=
      carries_ok (fun r => { r with pending := .option s set (some argument) }) hp rfl rfl
    exact hcarries.congr (htake (p.behind flag g) rfl)
  · have htake : ∀ r : Progress ρ, r.pending = p.pending →
        r.takeWord sig argument = r.takeOperand sig argument := by
      intro r hr
      unfold Progress.takeWord
      split
      · next s set hpending => exact absurd ⟨s, set, hr.symm.trans hpending⟩ hwaits
      · rfl
    rw [htake p rfl] at h
    have hcarries := carries_takeOperand hsig hp h
    exact hcarries.congr (htake (p.behind flag g) rfl)

end Steps

/-! ### Reading to the end -/

/-- Reading from some progress on gives choices, and behind the flag it gives a result, unless the
flag is given on the way. -/
structure Concludes {τ : Type} (flag : Setting ρ) (g : ρ → ρ)
    (read : Progress ρ → Except Misuse τ) (p : Progress ρ) (choices : ρ) (result : τ) : Prop where
  keeps : g p.choices = p.choices → g choices = choices
  follows : g choices = choices ∨ read (p.behind flag g) = .ok result

section Reading

variable {τ : Type} {sig : Signature ρ} {flag : Setting ρ} {g : ρ → ρ} {p q : Progress ρ} {c : ρ}

/-- A step, and reading on from there. -/
theorem Carries.concludes {step : Progress ρ → Except Misuse (Progress ρ)}
    {read : Progress ρ → Except Misuse τ} {result : τ} (h : Carries flag g step p q)
    (h' : Concludes flag g read q c result) :
    Concludes flag g (fun p => step p >>= read) p c result := by
  refine ⟨fun hp => h'.keeps (h.keeps hp), ?_⟩
  rcases h.follows with hq | hstep
  · exact .inl (h'.keeps hq)
  · refine h'.follows.imp id fun hread => ?_
    rw [hstep]
    exact hread

/-- There is nothing more to read. -/
theorem concludes_choices (p : Progress ρ) (f : ρ → τ) :
    Concludes flag g (fun p => .ok (f p.choices)) p p.choices (f (g p.choices)) :=
  ⟨id, .inr rfl⟩

/-- Reading arguments that are all operands. -/
theorem concludes_finish (hsig : sig.HasFlag flag g) (hp : p.pending.Fits flag g)
    {arguments : List String} (h : p.finish sig arguments = .ok c) :
    Concludes flag g (fun p => p.finish sig arguments) p c (g c) := by
  induction arguments generalizing p with
  | nil =>
    obtain ⟨q, hq, h⟩ := bind_eq_ok.mp h
    cases h
    exact (carries_settle hsig hp hq).concludes (concludes_choices q id)
  | cons argument rest ih =>
    obtain ⟨q, hq, h⟩ := bind_eq_ok.mp h
    have hcarries := carries_takeOperand hsig hp hq
    exact hcarries.concludes (ih hcarries.fits h)

/-- Reading arguments. -/
theorem concludes_readFrom (hsig : sig.HasFlag flag g) (hp : p.pending.Fits flag g)
    {arguments : List String} (h : sig.readFrom p arguments = .ok (some c)) :
    Concludes flag g (fun p => sig.readFrom p arguments) p c (some (g c)) := by
  induction arguments generalizing p with
  | nil =>
    obtain ⟨q, hq, h⟩ := bind_eq_ok.mp h
    cases h
    exact (carries_settle hsig hp hq).concludes (concludes_choices q some)
  | cons argument rest ih =>
    simp only [Signature.readFrom] at h ⊢
    cases hform : form argument with
    | escape =>
      simp only [hform] at h ⊢
      obtain ⟨c', hc', h⟩ := bind_eq_ok.mp h
      cases h
      have hfinish := concludes_finish hsig hp hc'
      refine ⟨hfinish.keeps, hfinish.follows.imp id fun hread => ?_⟩
      rw [hread]
      rfl
    | long name value =>
      simp only [hform] at h ⊢
      cases hsetting : sig.setting? name with
      | some s =>
        simp only [hsetting] at h ⊢
        obtain ⟨q, hq, h⟩ := bind_eq_ok.mp h
        have hs : s ∈ sig.settings := List.mem_of_find?_eq_some hsetting
        have hcarries := carries_takeSetting hsig hs hp hq
        exact hcarries.concludes (ih hcarries.fits h)
      | none =>
        -- Nothing is chosen if help is asked for or the option is unknown.
        simp only [hsetting] at h
        split at h
        · cases value with
          | some value => cases h
          | none =>
            obtain ⟨_, -, h⟩ := bind_eq_ok.mp h
            cases h
        · cases h
    | short letter cs =>
      simp only [hform] at h ⊢
      cases hletter : sig.letter? letter with
      | some s =>
        simp only [hletter] at h ⊢
        obtain ⟨q, hq, h⟩ := bind_eq_ok.mp h
        have hs : s ∈ sig.settings := List.mem_of_find?_eq_some hletter
        have hcarries := carries_takeSetting hsig hs hp hq
        exact hcarries.concludes (ih hcarries.fits h)
      | none =>
        simp only [hletter] at h
        split at h
        · obtain ⟨_, -, h⟩ := bind_eq_ok.mp h
          cases h
        · cases h
    | word =>
      simp only [hform] at h ⊢
      obtain ⟨q, hq, h⟩ := bind_eq_ok.mp h
      have hcarries := carries_takeWord hsig hp hq
      exact hcarries.concludes (ih hcarries.fits h)

end Reading

/-- **A flag more.**  Let an option be a flag of the command that makes a change, and let arguments
be read into choices on which that change has an effect, so that the flag is not among them.  Then
with the flag before them, the arguments are read into the changed choices. -/
theorem read_cons_flag {sig : Signature ρ} {flag : Setting ρ} {g : ρ → ρ}
    (hsig : sig.HasFlag flag g) (hfind : sig.setting? flag.name = some flag) {argument : String}
    (hform : form argument = .long flag.name none) {arguments : List String} {c : ρ}
    (h : sig.read arguments = .ok (some c)) (hc : g c ≠ c) :
    sig.read (argument :: arguments) = .ok (some (g c)) := by
  have hstart : (Pending.none : Pending ρ).Fits flag g := trivial
  have hread := (concludes_readFrom (p := ⟨sig.default, [], false, .none⟩) hsig hstart
    h).follows.resolve_left hc
  have htake : Progress.takeSetting sig ⟨sig.default, [], false, .none⟩ flag none
      = .ok (Progress.behind flag g ⟨sig.default, [], false, .none⟩) := by
    unfold Progress.takeSetting
    rw [hsig.effect_eq]
    rfl
  simp only [Signature.read, Signature.readFrom, hform, hfind, htake]
  exact hread

/-- The flag that lets a diagram be written whatever its defects. -/
def noValidateFlag : Setting CompileChoices :=
  ⟨"no-validate", none, "--no-validate", .flag fun c => { c with check := false }⟩

theorem hasFlag_noValidateFlag :
    compileSignature.HasFlag noValidateFlag fun c => { c with check := false } where
  effect_eq := rfl
  idem _ := rfl
  eq_of_label s hs hlabel := by
    simp only [compileSignature, List.mem_cons, List.not_mem_nil, or_false] at hs
    rcases hs with rfl | rfl | rfl | rfl
    · exact absurd hlabel (by decide)
    · exact absurd hlabel (by decide)
    · exact absurd hlabel (by decide)
    · rfl
  operand _ _ := rfl
  settings s hs := by
    simp only [compileSignature, List.mem_cons, List.not_mem_nil, or_false] at hs
    rcases hs with rfl | rfl | rfl | rfl
    · exact commutes_of fun _ _ => rfl
    · exact commutes_of fun _ _ => rfl
    · exact commutes_of fun _ _ => rfl
    · exact fun _ => rfl

/-- The requests of a command are those that its signature reads. -/
theorem commandRequest_eq_ok_iff {name : String} {sig : Signature ρ} {request : ρ → Request}
    (hinj : ∀ a b, request a = request b → a = b) (hhelp : ∀ a topic, request a ≠ .help topic)
    {arguments : List String} {c : ρ} :
    commandRequest name sig request arguments = .ok (request c)
      ↔ sig.read arguments = .ok (some c) := by
  unfold commandRequest
  constructor
  · intro h
    obtain ⟨choices?, hread, h⟩ := bind_eq_ok.mp h
    cases choices? with
    | none => exact absurd (Except.ok.inj h).symm (hhelp c _)
    | some choices => rw [hread, hinj choices c (Except.ok.inj h)]
  · intro h
    rw [h]
    rfl

theorem ofArguments_validate_iff {arguments : List String} {file : Option String} :
    Request.ofArguments ("validate" :: arguments) = .ok (.validate file)
      ↔ validateSignature.read arguments = .ok (some file) :=
  commandRequest_eq_ok_iff (fun _ _ => Request.validate.inj) fun _ _ => Request.noConfusion

theorem ofArguments_compile_iff {arguments : List String} {c : CompileChoices} :
    Request.ofArguments ("compile" :: arguments) = .ok (.compile c)
      ↔ compileSignature.read arguments = .ok (some c) :=
  commandRequest_eq_ok_iff (fun _ _ => Request.compile.inj) fun _ _ => Request.noConfusion

/-- A request to write a diagram that has no defects becomes one to write it whatever its defects,
if the flag for that is put before the other arguments. -/
theorem ofArguments_compile_noValidate {arguments : List String} {c : CompileChoices}
    (h : Request.ofArguments ("compile" :: arguments) = .ok (.compile c)) (hc : c.check = true) :
    Request.ofArguments ("compile" :: "--no-validate" :: arguments)
      = .ok (.compile { c with check := false }) := by
  rw [ofArguments_compile_iff] at h ⊢
  have hform : form "--no-validate" = .long noValidateFlag.name none := by decide
  refine read_cons_flag hasFlag_noValidateFlag rfl hform h fun heq => ?_
  exact Bool.false_ne_true ((congrArg CompileChoices.check heq).trans hc)

end FlowCanvas
