import ByteMachine.Proofs.Files
import ByteMachine.Proofs.System.Safety

/-!
Saving a halted machine and loading what was saved.  The two bounds on the program counter differ by
one: a machine that halts at the last address of memory leaves its program counter behind memory,
where it can be saved but not loaded.
-/

namespace ByteMachine

variable {config : Config} {files tree : FileTree} {image : Image} {given : Option Image}
  {console : Console} {machine m : Machine} {s : Flat} {place : Value} {path : List UInt8}
  {directory : Place} {name : FileName}

theorem takeImage_holds {memory : List UInt8} (hm : m.bus.Holds memory) :
    Machine.takeImage m = .ok ⟨m.cpu.pc, memory⟩ m := by
  have hpc : Machine.readPc m = .ok m.cpu.pc m := rfl
  rw [Machine.takeImage, bind_ok (Machine.onBus_ok hm.contents)]
  exact bind_ok hpc

theorem takeImage_shows (h : m.Shows s) : Machine.takeImage m = .ok ⟨s.pc, s.memory⟩ m := by
  rw [takeImage_holds h.memory, h.pc]

theorem load_saved (he : image.Encodable) (ht : place.target = .ok (.path path))
    (hf : tree.Fresh path directory name) :
    ∃ saved, (Image.save tree place image).2 = .ok saved ∧
      (Image.load saved place image.size).2 =
        if image.pc < image.size then .ok image else .error (.pcBeyond image.pc image.size) := by
  obtain ⟨content, hcontent, hdecode⟩ := Image.decode_encode he place.shown
  refine ⟨tree.add (directory ++ [name]) (.file content), ?_, ?_⟩
  · simp only [Image.save, hcontent, ht, FileTree.createTarget, FileTree.create_fresh hf,
      Except.mapError]
  · simp only [Image.load, ht, FileTree.readTarget, FileTree.read_created hf]
    exact hdecode

/-- The image of a machine that has halted can always be saved.  It is loaded again exactly if the
machine has not halted at the last address of memory. -/
theorem halted_image_reloads {count : Nat} {snapshots : List Snapshot}
    (hb : (config.build files given console).2 = .ok machine) (hg : StartsInside given)
    (hs : Machine.steps count machine = .ok snapshots m) (hh : m.status = .halted)
    (ht : place.target = .ok (.path path)) (hf : tree.Fresh path directory name) :
    ∃ image saved, ∃ halt : Nat, Machine.takeImage m = .ok image m ∧ image.pc = m.cpu.pc ∧
      Bus.contents m.bus = .ok image.memory m.bus ∧ m.cpu.pc = halt + 1 ∧
      (∃ opcode, image.memory[halt]? = some opcode ∧ Flat.Stops opcode) ∧
      (Image.save tree place image).2 = .ok saved ∧
      (Image.load saved place config.memorySize).2 =
        if halt + 1 < config.memorySize then .ok image
        else .error (.pcBeyond config.memorySize config.memorySize) := by
  obtain ⟨start, hstart, hsound, hsize, hz⟩ := build_sound hb hg
  obtain ⟨last, hsteps, hm⟩ := steps_shows hstart count
  rw [hs] at hsteps
  cases hsteps
  have hlast := Flat.after_sound hsound (by omega) count
  generalize (start.start console).after count = s at hm hlast
  obtain ⟨halt, hhalt⟩ := hlast.halted (hm.status.symm.trans hh)
  have hpc := hhalt.pc
  have hin := hhalt.inside
  have hlength := hlast.memory
  have hfull : (Image.size ⟨s.pc, s.memory⟩ : Int) = config.memorySize := by
    rw [← hz]
    exact congrArg Nat.cast hlength
  have he : Image.Encodable ⟨s.pc, s.memory⟩ := by
    unfold Image.Encodable Image.size Image.Header.byteCount
    dsimp only
    omega
  obtain ⟨saved, hsave, hload⟩ := load_saved he ht hf
  rw [hfull] at hload
  refine ⟨⟨s.pc, s.memory⟩, saved, halt, takeImage_shows hm, hm.pc.symm, hm.memory.contents,
    hm.pc.trans hpc, hhalt.stops, hsave, ?_⟩
  rw [hload]
  dsimp only
  rw [hpc]
  by_cases hlt : (halt : Int) + 1 < config.memorySize
  · rw [if_pos hlt, if_pos hlt]
  · have hend : (halt : Int) + 1 = config.memorySize := by omega
    rw [if_neg hlt, if_neg hlt, hend]

theorem fresh_in_empty :
    FileTree.Fresh {} (Text.bytes "o.img") [] (Text.bytes "o.img") := by
  have hb : Text.bytes "o.img" = [111, 46, 105, 109, 103] := by decide +kernel
  rw [hb]
  refine ⟨?_, ?_, ?_, ?_, ?_, ?_⟩ <;> decide

theorem plain_target : (Value.text "o.img").target = .ok (.path (Text.bytes "o.img")) :=
  Value.text_target (by decide +kernel) (Value.not_contains_null (by decide))

/-- Two bytes of memory, the first of which suspends the machine. -/
theorem halted_image_reloads_early :
    ∃ machine snapshots m,
      (Config.build {} { memorySize := 2 } (some ⟨0, [0, 7]⟩) {}).2 = .ok machine ∧
      Machine.steps 1 machine = .ok snapshots m ∧ m.status = .halted ∧
      ∃ image saved, ∃ halt : Nat, Machine.takeImage m = .ok image m ∧ image.pc = m.cpu.pc ∧
        Bus.contents m.bus = .ok image.memory m.bus ∧ m.cpu.pc = halt + 1 ∧
        (∃ opcode, image.memory[halt]? = some opcode ∧ Flat.Stops opcode) ∧
        (Image.save {} (.text "o.img") image).2 = .ok saved ∧
        (Image.load saved (.text "o.img") 2).2 =
          if (halt : Int) + 1 < 2 then .ok image else .error (.pcBeyond 2 2) := by
  obtain ⟨machine, hb, hstart⟩ := build_given {} { memorySize := 2 } ⟨0, [0, 7]⟩ {} rfl rfl
  have hg : StartsInside (some ⟨0, [0, 7]⟩) := by
    intro image hi
    cases hi
    decide
  obtain ⟨m, hs, hm⟩ := steps_shows hstart 1
  have hh : m.status = .halted := hm.status.trans (by decide +kernel)
  exact ⟨machine, _, m, hb, hs, hh, halted_image_reloads hb hg hs hh plain_target fresh_in_empty⟩

/-- One byte of memory, which suspends the machine: what is saved of it is not accepted. -/
theorem halt_at_last_address_not_reloaded :
    ∃ machine snapshots m saved,
      (Config.build {} { memorySize := 1 } (some ⟨0, [0]⟩) {}).2 = .ok machine ∧
      Machine.steps 1 machine = .ok snapshots m ∧ m.status = .halted ∧
      Machine.takeImage m = .ok ⟨1, [0]⟩ m ∧
      (Image.save {} (.text "o.img") ⟨1, [0]⟩).2 = .ok saved ∧
      (Image.load saved (.text "o.img") 1).2 = .error (.pcBeyond 1 1) := by
  obtain ⟨machine, hb, hstart⟩ := build_given {} { memorySize := 1 } ⟨0, [0]⟩ {} rfl rfl
  obtain ⟨m, hs, hm⟩ := steps_shows hstart 1
  have hh : m.status = .halted := hm.status.trans (by decide +kernel)
  have himage := takeImage_shows hm
  have he : Image.Encodable ⟨1, [0]⟩ := by
    unfold Image.Encodable
    decide
  obtain ⟨saved, hsave, hload⟩ := load_saved he plain_target fresh_in_empty
  exact ⟨machine, _, m, saved, hb, hs, hh, himage, hsave, hload⟩

end ByteMachine
