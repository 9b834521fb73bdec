import ByteMachine.Options

/-!
Command lines.  The words of a command line ask for choices, one after the other.  The parser
accepts exactly the lines that can be read in this way, and makes the choices from left to right.
-/

namespace ByteMachine

inductive Choice where
  | turnOn (switch : Switch)
  | give (switch : Switch) (value : Given)
  | image (value : Given)
  deriving DecidableEq, Repr

namespace Choice

def apply (options : Options) : Choice → Options
  | turnOn switch => options.enable switch
  | give switch value => options.assign value switch
  | image value => options.takeImage value

end Choice

/-- Where a word stands with respect to the plain argument that names an image. -/
inductive Position where
  | before
  | rightBehind
  | behind
  deriving DecidableEq, Repr

def Position.next : Position → Position
  | before => before
  | rightBehind | behind => behind

def Word.Joins : Word → Joined → Prop
  | known switch long attached, joined =>
    Joined.ofSwitch switch long attached = .ok joined ∧
      .help ∉ joined.enabled ∧ joined.last ≠ .help
  | _, _ => False

/-- The words ask for these choices, if the first of them stands at this position.  There is at most
one plain argument, which is chosen at the end without a value if it has not been met; a separator
may stand in front of it or right behind it. -/
inductive Asks (release : Release) : Position → List Word → List Choice → Prop where
  | unnamed : Asks release .before [] [.image .absent]
  | done {position : Position} (hp : position ≠ .before) : Asks release position [] []
  | flag {position : Position} {word : Word} {joined : Joined} {words : List Word}
      {choices : List Choice} (hj : word.Joins joined) (hv : joined.last.takesValue = false)
      (rest : Asks release position.next words choices) :
      Asks release position (word :: words)
        (joined.enabled.map .turnOn ++ [.turnOn joined.last] ++ choices)
  | attached {position : Position} {word : Word} {joined : Joined} {value : String}
      {words : List Word} {choices : List Choice} (hj : word.Joins joined)
      (hv : joined.last.takesValue = true) (ha : joined.attached = some value)
      (rest : Asks release position.next words choices) :
      Asks release position (word :: words)
        (joined.enabled.map .turnOn ++ [.give joined.last (.ofAttached release value)] ++ choices)
  | separate {position : Position} {word : Word} {joined : Joined} {value : String}
      {words : List Word} {choices : List Choice} (hj : word.Joins joined)
      (hv : joined.last.takesValue = true) (ha : joined.attached = none)
      (rest : Asks release position.next words choices) :
      Asks release position (word :: .plain value :: words)
        (joined.enabled.map .turnOn ++ [.give joined.last (.text value)] ++ choices)
  | image {path : String} {words : List Word} {choices : List Choice}
      (rest : Asks release .rightBehind words choices) :
      Asks release .before (.plain path :: words) (.image (.text path) :: choices)
  | separator {position : Position} {words : List Word} {choices : List Choice}
      (hp : position ≠ .behind) (rest : Asks release position.next words choices) :
      Asks release position (.separator :: words) choices

namespace Progress

variable {progress next : Progress} {options : Options} {word : Word} {words : List Word}
  {choices : List Choice} {release : Release}

def position (progress : Progress) : Position :=
  if progress.imageMet then if progress.afterImage then .rightBehind else .behind else .before

/-- Reads the rest of the words. -/
def read (release : Release) (progress : Progress) (words : List Word) : Except Stop Options := do
  (← words.foldlM (step release) progress).finish

theorem read_cons (h : progress.step release word = .ok next) :
    progress.read release (word :: words) = next.read release words := by
  rw [read, List.foldlM_cons, h]
  rfl

/-- What is chosen without the plain argument, and behind it. -/
def choose (progress : Progress) (choices : List Choice) : Progress :=
  { progress with options := choices.foldl Choice.apply progress.options, afterImage := false }

theorem choose_position (progress : Progress) (choices : List Choice) :
    (progress.choose choices).position = progress.position.next := by
  obtain ⟨options, awaiting, imageMet, afterImage, strangers⟩ := progress
  cases imageMet <;> cases afterImage <;> rfl

theorem enable_eq (progress : Progress) (switches : List Switch) :
    { progress with afterImage := false }.enable switches =
      progress.choose (switches.map .turnOn) := by
  rw [choose, List.foldl_map]
  rfl

theorem choose_append (progress : Progress) (choices : List Choice) (choice : Choice) :
    progress.choose (choices ++ [choice]) =
      { progress.choose choices with
        options := choice.apply (progress.choose choices).options } := by
  rw [choose, List.foldl_append]
  rfl

section Steps

variable {joined : Joined} {value : String} (ha : progress.awaiting = none)
include ha

theorem step_joins (hj : word.Joins joined) :
    progress.step release word =
      .ok ((progress.choose (joined.enabled.map .turnOn)).switches release joined) := by
  rw [← enable_eq]
  obtain ⟨options, awaiting, imageMet, afterImage, strangers⟩ := progress
  cases ha
  cases word with
  | known switch long attached =>
    obtain ⟨hj, henabled, hlast⟩ := hj
    dsimp only [step, Progress.word]
    rw [hj]
    exact if_neg (not_or.mpr ⟨henabled, hlast⟩)
  | _ => exact hj.elim

theorem step_flag (hj : word.Joins joined) (hv : joined.last.takesValue = false) :
    progress.step release word =
      .ok (progress.choose (joined.enabled.map .turnOn ++ [.turnOn joined.last])) := by
  rw [step_joins ha hj, switches, if_neg (by rw [hv]; decide), choose_append]
  rfl

theorem step_attached (hj : word.Joins joined) (hv : joined.last.takesValue = true)
    (hattached : joined.attached = some value) :
    progress.step release word = .ok (progress.choose
      (joined.enabled.map .turnOn ++ [.give joined.last (.ofAttached release value)])) := by
  obtain ⟨options, awaiting, imageMet, afterImage, strangers⟩ := progress
  cases ha
  rw [step_joins rfl hj, switches, if_pos hv, hattached, choose_append]
  rfl

theorem step_separate (hj : word.Joins joined) (hv : joined.last.takesValue = true)
    (hattached : joined.attached = none) :
    progress.step release word = .ok { progress.choose (joined.enabled.map .turnOn) with
      awaiting := some joined.last } := by
  rw [step_joins ha hj, switches, if_pos hv, hattached]

theorem step_separator (hp : progress.position ≠ .behind) :
    progress.step release .separator = .ok (progress.choose []) := by
  obtain ⟨options, awaiting, imageMet, afterImage, strangers⟩ := progress
  cases ha
  cases imageMet with
  | false => rfl
  | true =>
    cases afterImage with
    | true => rfl
    | false => exact absurd rfl hp

theorem step_value (choices : List Choice) (switch : Switch) :
    { progress.choose choices with awaiting := some switch }.step release (.plain value) =
      .ok (progress.choose (choices ++ [.give switch (.text value)])) := by
  obtain ⟨options, awaiting, imageMet, afterImage, strangers⟩ := progress
  cases ha
  rw [choose_append]
  rfl

end Steps

end Progress

theorem Asks.read {release : Release} {position : Position} {words : List Word}
    {choices : List Choice} (h : Asks release position words choices) :
    ∀ progress : Progress, progress.position = position →
      progress.awaiting = none → progress.strangers = [] →
      progress.read release words = .ok (choices.foldl Choice.apply progress.options) := by
  induction h with
  | unnamed =>
    rintro ⟨options, awaiting, imageMet, afterImage, strangers⟩ hp ha hs
    cases ha
    cases hs
    cases imageMet with
    | true => cases afterImage <;> cases hp
    | false => rfl
  | done hp =>
    rintro ⟨options, awaiting, imageMet, afterImage, strangers⟩ rfl ha hs
    cases ha
    cases hs
    cases imageMet with
    | true => rfl
    | false => exact absurd rfl hp
  | flag hj hv rest ih =>
    rintro progress rfl ha hs
    rw [Progress.read_cons (Progress.step_flag ha hj hv),
      ih _ (progress.choose_position _) ha hs, List.foldl_append]
    rfl
  | attached hj hv hattached rest ih =>
    rintro progress rfl ha hs
    rw [Progress.read_cons (Progress.step_attached ha hj hv hattached),
      ih _ (progress.choose_position _) ha hs, List.foldl_append]
    rfl
  | separate hj hv hattached rest ih =>
    rintro progress rfl ha hs
    rw [Progress.read_cons (Progress.step_separate ha hj hv hattached),
      Progress.read_cons (Progress.step_value ha _ _),
      ih _ (progress.choose_position _) ha hs, List.foldl_append]
    rfl
  | image rest ih =>
    rintro ⟨options, awaiting, imageMet, afterImage, strangers⟩ hp ha hs
    cases ha
    cases imageMet with
    | true => cases afterImage <;> cases hp
    | false =>
      rw [Progress.read_cons rfl]
      exact ih _ rfl rfl hs
  | separator hp rest ih =>
    rintro progress rfl ha hs
    rw [Progress.read_cons (Progress.step_separator ha hp)]
    exact ih _ (progress.choose_position _) ha hs

namespace Progress

variable {progress next : Progress} {options : Options} {word : Word} {words : List Word}
  {release : Release}

end Progress

end ByteMachine
