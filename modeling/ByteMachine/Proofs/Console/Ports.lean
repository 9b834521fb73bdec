import ByteMachine.Proofs.Console.Reading

/-!
The two ports of the console in terms of what is left to read and what has been written.
-/

namespace ByteMachine

namespace Console

structure Exchanges (console next : Console) (rest written : List UInt8) : Prop where
  remaining : next.remaining = rest
  interactive : next.interactive = console.interactive
  programOutput : next.programOutput = console.programOutput ++ written

@[simp] theorem programOutput_put (console : Console) (bytes : List UInt8) :
    (console.put bytes).programOutput = console.programOutput ++ bytes := by
  simp [programOutput, put]

theorem programOutput_congr {console next : Console} (h : next.output = console.output) :
    next.programOutput = console.programOutput := by
  simp only [programOutput, h]

theorem put_exchanges (console : Console) (bytes : List UInt8) :
    console.Exchanges (console.put bytes) console.remaining bytes :=
  ⟨rfl, rfl, programOutput_put console bytes⟩

theorem Leaves.exchanges {console next : Console} {rest : List UInt8}
    (h : console.Leaves next rest) : console.Exchanges next rest [] :=
  ⟨h.remaining, h.interactive, by rw [programOutput_congr h.output, List.append_nil]⟩

end Console

namespace ConsolePort

open Console

theorem read_character (console : Console) :
    (character.read console).1 =
        (console.remaining.head?.map fun byte => (byte.toNat : Int)).getD (-1) ∧
      console.Exchanges (character.read console).2 console.remaining.tail [] := by
  have hl := console.getByte_leaves.exchanges
  have hf := console.getByte_fst
  rw [read, ← hf]
  split <;> next hg =>
    rw [hg] at hl ⊢
    exact ⟨rfl, hl⟩

def prompt (console : Console) : List UInt8 := if console.interactive then [63] else []

theorem read_numeric (console : Console) :
    (numeric.read console).1 = (scanNumber console.remaining).1.getD 0 ∧
      console.Exchanges (numeric.read console).2 (scanNumber console.remaining).2
        (prompt console) := by
  let shown := if console.interactive then console.put [63] else console
  have hshown : console.Exchanges shown console.remaining (prompt console) := by
    simp only [shown, prompt]
    split
    · exact console.put_exchanges [63]
    · exact (Leaves.refl console).exchanges
  obtain ⟨hvalue, hrest⟩ := shown.readNumber_leaves
  rw [hshown.remaining] at hvalue hrest
  rw [read, ← hvalue]
  have hout := (programOutput_congr hrest.output).trans hshown.programOutput
  have hint := hrest.interactive.trans hshown.interactive
  have hrem := hrest.remaining
  split <;> next hn =>
    rw [hn] at hout hint hrem ⊢
    exact ⟨rfl, hrem, hint, hout⟩

theorem write_character (console : Console) (data : Int) :
    console.Exchanges (character.write console data) console.remaining [UInt8.ofInt data] :=
  console.put_exchanges _

theorem write_numeric (console : Console) (data : Int) :
    console.Exchanges (numeric.write console data) console.remaining
      (asciiBytes (toString data) ++ [lineFeed]) :=
  console.put_exchanges _

end ConsolePort

end ByteMachine
