import ByteMachine.Options

/-!
The switches that turn dumps on without pausing.  In front of a command line they set their two
options and change nothing else: what else is read, and what is refused, stays the same.
-/

namespace ByteMachine

def Options.traced (options : Options) : Options := { options with debug := true, noPause := true }

theorem Options.enable_traced (options : Options) (switch : Switch) :
    options.traced.enable switch = (options.enable switch).traced := by
  cases switch <;> rfl

theorem Options.takeImage_traced (options : Options) (value : Given) :
    options.traced.takeImage value = (options.takeImage value).traced := by
  cases value <;> rfl

theorem Options.assign_traced (options : Options) (value : Given) (switch : Switch) :
    options.traced.assign value switch = (options.assign value switch).traced := by
  cases switch with
  | load => exact options.takeImage_traced value
  | _ => rfl

namespace Progress

def traced (progress : Progress) : Progress := { progress with options := progress.options.traced }

theorem assign_traced (progress : Progress) (value : Given) (switch : Switch) :
    progress.traced.assign value switch = (progress.assign value switch).traced := by
  unfold assign traced
  rw [Options.assign_traced]

theorem enable_traced (progress : Progress) (switches : List Switch) :
    progress.traced.enable switches = (progress.enable switches).traced := by
  have hfold : ∀ options : Options, switches.foldl Options.enable options.traced =
      (switches.foldl Options.enable options).traced := by
    induction switches with
    | nil => exact fun _ => rfl
    | cons switch rest ih =>
      intro options
      rw [List.foldl_cons, List.foldl_cons, Options.enable_traced]
      exact ih (options.enable switch)
  unfold enable traced
  rw [hfold]

theorem plain_traced (progress : Progress) (text : String) :
    progress.traced.plain text = (progress.plain text).traced := by
  have hmet : progress.traced.imageMet = progress.imageMet := rfl
  unfold plain
  rw [hmet]
  split
  · rfl
  · rw [show progress.traced.options = progress.options.traced from rfl, Options.takeImage_traced]
    rfl

theorem switches_traced (release : Release) (progress : Progress) (joined : Joined) :
    progress.traced.switches release joined = (progress.switches release joined).traced := by
  unfold switches
  split
  · split
    · exact assign_traced progress _ _
    · rfl
  · exact enable_traced progress _

theorem word_traced (release : Release) (progress : Progress) (afterImage : Bool) (word : Word) :
    progress.traced.word release afterImage word =
      (progress.word release afterImage word).map traced := by
  cases word with
  | plain text => exact congrArg Except.ok (plain_traced progress text)
  | separator =>
    by_cases hbehind : progress.imageMet ∧ ¬afterImage
    · have hbehind' : progress.traced.imageMet ∧ ¬afterImage := hbehind
      simp only [Progress.word, if_pos hbehind, if_pos hbehind']
      rfl
    · have hbehind' : ¬(progress.traced.imageMet ∧ ¬afterImage) := hbehind
      simp only [Progress.word, if_neg hbehind, if_neg hbehind']
      rfl
  | unknown text => rfl
  | known switch long attached =>
    unfold Progress.word
    dsimp only
    cases Joined.ofSwitch switch long attached with
    | error e => rfl
    | ok joined =>
      dsimp only
      split
      · rfl
      · rw [enable_traced, switches_traced]
        rfl

theorem step_traced (release : Release) (progress : Progress) (word : Word) :
    progress.traced.step release word = (progress.step release word).map traced := by
  obtain ⟨options, awaiting, imageMet, afterImage, strangers⟩ := progress
  cases awaiting with
  | none => exact word_traced release ⟨options, none, imageMet, false, strangers⟩ afterImage word
  | some switch =>
    cases word with
    | plain value => exact congrArg Except.ok (assign_traced _ _ switch)
    | _ => rfl

theorem foldlM_traced (release : Release) (progress : Progress) (words : List Word) :
    words.foldlM (step release) progress.traced =
      (words.foldlM (step release) progress).map traced := by
  induction words generalizing progress with
  | nil => rfl
  | cons word rest ih =>
    rw [List.foldlM_cons, List.foldlM_cons, step_traced]
    cases progress.step release word with
    | error stop => rfl
    | ok next => exact ih next

theorem finish_traced (progress : Progress) :
    progress.traced.finish = progress.finish.map Options.traced := by
  obtain ⟨options, awaiting, imageMet, afterImage, strangers⟩ := progress
  cases awaiting with
  | some switch => rfl
  | none =>
    cases strangers with
    | nil =>
      cases imageMet with
      | true => rfl
      | false => exact congrArg Except.ok (Options.takeImage_traced options .absent)
    | cons text rest => rfl

end Progress

theorem Word.ofArgument_of_name {text : String} {switch : Switch}
    (h : Switch.ofName? text = some switch) :
    ofArgument text = .ok (.known switch (text.startsWith "--") none) := by
  rw [ofArgument, h]

namespace Options

theorem ofWords_traced (release : Release) (words : List Word) :
    ofWords release (.known .debug false none :: .known .noPause true none :: words) =
      (ofWords release words).map traced := by
  have hfold := Progress.foldlM_traced release {} words
  unfold ofWords
  change words.foldlM (Progress.step release) (Progress.traced {}) >>= Progress.finish = _
  rw [hfold]
  cases words.foldlM (Progress.step release) {} with
  | error stop => rfl
  | ok progress => exact Progress.finish_traced progress

theorem ofArguments_traced (release : Release) (arguments : List String) :
    ofArguments release ("-d" :: "--no-pause" :: arguments) =
      (ofArguments release arguments).map traced := by
  have hdebug : Word.ofArgument "-d" = .ok (.known .debug false none) := by
    simp [Word.ofArgument_of_name (by decide : Switch.ofName? "-d" = some .debug)]
  have hpause : Word.ofArgument "--no-pause" = .ok (.known .noPause true none) := by
    simp [Word.ofArgument_of_name (by decide : Switch.ofName? "--no-pause" = some .noPause)]
  have hwords : Word.ofArguments ("-d" :: "--no-pause" :: arguments) =
      (Word.ofArguments arguments).map fun words =>
        .known .debug false none :: .known .noPause true none :: words := by
    rw [Word.ofArguments, Word.ofArguments, if_neg (by decide), if_neg (by decide), hdebug, hpause]
    cases Word.ofArguments arguments <;> rfl
  unfold ofArguments
  rw [hwords]
  cases Word.ofArguments arguments with
  | error e => rfl
  | ok words => exact ofWords_traced release words

end Options

end ByteMachine
