import ByteMachine.Proofs.Bus.Mapping
import ByteMachine.Proofs.Bus.Tiling
import ByteMachine.Proofs.Instruction.Codec
import ByteMachine.Proofs.Instruction.Text

/-!
Code in memory.  Assembled code that stands anywhere in memory is decoded to the instruction that it
came from, and whatever else is decoded there can be assembled to the bytes that it was read from.
A listing loses neither: its texts alone tell which bytes stand in memory.
-/

namespace ByteMachine

namespace Bus

variable {h : Hardware} {bus : Bus h} {address : Int} {code : List UInt8}

/-- Memory shows this code from the address on. -/
def HasCode (bus : Bus h) (address : Int) (code : List UInt8) : Prop :=
  ∀ i : Nat, i < code.length → bus.byteAt (address + i) = code[i]?

theorem hasCode_nil (bus : Bus h) (address : Int) : bus.HasCode address [] :=
  fun _ hi => absurd hi (Nat.not_lt_zero _)

theorem hasCode_cons (bus : Bus h) (address : Int) (byte : UInt8) (code : List UInt8) :
    bus.HasCode address (byte :: code) ↔
      bus.byteAt address = some byte ∧ bus.HasCode (address + 1) code := by
  have hshift : ∀ i : Nat, address + (i + 1 : Nat) = address + 1 + i := by
    intro i
    omega
  constructor
  · intro hc
    refine ⟨by simpa using hc 0 (Nat.succ_pos _), fun i hi => ?_⟩
    have hnext := hc (i + 1) (Nat.succ_lt_succ hi)
    rwa [hshift, List.getElem?_cons_succ] at hnext
  · rintro ⟨hfirst, hrest⟩ i hi
    cases i with
    | zero => simpa using hfirst
    | succ i =>
      rw [hshift, List.getElem?_cons_succ]
      exact hrest i (Nat.lt_of_succ_lt_succ hi)

section Decoding

theorem inside_of_byteAt {byte : UInt8} (hb : bus.byteAt address = some byte) :
    0 ≤ address ∧ address < bus.memorySize := by
  unfold byteAt at hb
  split at hb
  · rename_i hl
    obtain ⟨region, hr, hc, -⟩ := locate_eq_some hl
    have hlast := last_lt_memorySize hr
    unfold Region.Covers at hc
    omega
  · cases hb

theorem HasCode.readOperandBytes (hc : bus.HasCode address code) (log : List Access) :
    ∃ log', Bus.readOperandBytes address code.length { bus with log } =
      .ok code { bus with log := log' } := by
  induction code generalizing address log with
  | nil => exact ⟨log, rfl⟩
  | cons byte code ih =>
    obtain ⟨hb, hrest⟩ := (hasCode_cons ..).mp hc
    have hinside : Bus.requireInside address { bus with log } = .ok () { bus with log } :=
      if_pos (inside_of_byteAt hb)
    have hpeek : Bus.peek address { bus with log } = .ok byte { bus with log } := peek_byteAt hb
    have hread : Bus.read address { bus with log } =
        .ok byte { bus with log := log ++ [⟨.read, address, byte.toNat⟩] } := bind_ok hpeek
    obtain ⟨log', htail⟩ := ih hrest (log ++ [⟨.read, address, byte.toNat⟩])
    refine ⟨log', ?_⟩
    rw [List.length_cons, Bus.readOperandBytes, bind_ok hinside, bind_ok hread]
    exact bind_ok htail

/-- Wherever an opcode is followed by its operands, they are decoded together. -/
theorem HasCode.operationAt {opcode : UInt8} {bytes : List UInt8}
    (hc : bus.HasCode address (opcode :: bytes))
    (hl : bytes.length = Instruction.operandCount opcode.toNat) :
    ∃ log, Bus.operationAt address bus =
      .ok ⟨opcode.toNat, bytes, .ofBytes opcode.toNat bytes⟩ { bus with log } := by
  obtain ⟨hb, hrest⟩ := (hasCode_cons ..).mp hc
  obtain ⟨log, hread⟩ := hrest.readOperandBytes bus.log
  rw [hl] at hread
  exact ⟨log, (bind_ok (peek_byteAt hb)).trans (bind_ok hread)⟩

theorem readOperandBytes_length {count : Nat} {bytes : List UInt8} {next : Bus h}
    (hr : Bus.readOperandBytes address count bus = .ok bytes next) : bytes.length = count := by
  induction count generalizing address bus bytes with
  | zero =>
    cases hr
    rfl
  | succ count ih =>
    obtain ⟨_, inside, -, hr⟩ := bind_eq_ok hr
    obtain ⟨byte, after, -, hr⟩ := bind_eq_ok hr
    obtain ⟨rest, last, hrest, hr⟩ := bind_eq_ok hr
    cases hr
    exact congrArg (· + 1) (ih hrest)

theorem operationAt_spec {operation : Operation} {next : Bus h}
    (ho : Bus.operationAt address bus = .ok operation next) :
    ∃ (opcode : UInt8) (bytes : List UInt8),
      operation = ⟨opcode.toNat, bytes, .ofBytes opcode.toNat bytes⟩ ∧
      bytes.length = Instruction.operandCount opcode.toNat := by
  obtain ⟨opcode, seen, -, ho⟩ := bind_eq_ok ho
  obtain ⟨bytes, last, hr, ho⟩ := bind_eq_ok ho
  cases ho
  exact ⟨opcode, bytes, rfl, readOperandBytes_length hr⟩

theorem Displays.hasCode {memory : List UInt8} (hm : bus.Displays memory) {place : Nat}
    (hl : place + code.length ≤ memory.length)
    (hc : code = (memory.drop place).take code.length) : bus.HasCode place code := by
  intro i hi
  have hb := hm.bytes (place + i) (by omega)
  rw [hc, List.getElem?_take_of_lt hi, List.getElem?_drop, ← hb]
  rfl

theorem Filled.operationAt (hf : bus.Filled) {place : Nat} (hp : place < bus.memorySize)
    {operation : Operation} {next : Bus h}
    (ho : Bus.operationAt place bus = .ok operation next) :
    ∃ (opcode : UInt8) (bytes : List UInt8),
      operation = ⟨opcode.toNat, bytes, .ofBytes opcode.toNat bytes⟩ ∧
      bus.HasCode place (opcode :: bytes) := by
  have hm := hf.displays
  rw [← cells_length] at hp
  have hb : bus.cells[place]? = some bus.cells[place] := List.getElem?_eq_getElem hp
  have hdrop := List.drop_eq_getElem_cons hp
  generalize bus.cells[place] = opcode at hb hdrop
  by_cases hl : place + 1 + Instruction.operandCount opcode.toNat ≤ bus.cells.length
  · let bytes := (bus.cells.drop (place + 1)).take (Instruction.operandCount opcode.toNat)
    have hlength : bytes.length = Instruction.operandCount opcode.toNat := by
      simp only [bytes, List.length_take, List.length_drop]
      omega
    have hcode : bus.HasCode place (opcode :: bytes) := by
      refine hm.hasCode (by rw [List.length_cons]; omega) ?_
      rw [List.length_cons, hdrop, List.take_succ_cons, hlength]
    obtain ⟨log, hdecode⟩ := hcode.operationAt hlength
    rw [hdecode] at ho
    cases ho
    exact ⟨opcode, bytes, rfl, hcode⟩
  · have hread := hm.readOperandBytes_short (Instruction.operandCount opcode.toNat)
      (place + 1) hp (by omega) bus.log
    have hdecode : Bus.operationAt place bus = .error _ _ :=
      (bind_ok (hm.peek hb)).trans (bind_error hread)
    rw [hdecode] at ho
    cases ho

end Decoding

section Placing

theorem Separate.loadRange (hs : bus.Separate)
    (hm : ∀ i : Nat, i < code.length → (bus.byteAt (address + i)).isSome) :
    ∃ devices, Bus.loadRange address code bus = .ok () { bus with devices } ∧
      Separate { bus with devices } ∧ HasCode { bus with devices } address code ∧
      ∀ place, place < address ∨ address + code.length ≤ place →
        byteAt { bus with devices } place = bus.byteAt place := by
  induction code generalizing bus address with
  | nil => exact ⟨bus.devices, rfl, hs, hasCode_nil _ _, fun _ _ => rfl⟩
  | cons byte code ih =>
    obtain ⟨old, hold⟩ := Option.isSome_iff_exists.mp (hm 0 (Nat.succ_pos _))
    rw [Int.natCast_zero, Int.add_zero] at hold
    obtain ⟨devices, hload, hone, hbytes⟩ := load_byteAt hs hold (byte_range byte)
    have hroom : ∀ i : Nat, i < code.length →
        (byteAt { bus with devices } (address + 1 + i)).isSome := by
      intro i hi
      have hnext := hm (i + 1) (Nat.succ_lt_succ hi)
      rw [hbytes, if_neg (by omega)]
      rwa [show address + 1 + (i : Int) = address + (i + 1 : Nat) by omega]
    obtain ⟨devices', hrest, hall, hcode, hother⟩ := ih hone hroom
    refine ⟨devices', ?_, hall, ?_, ?_⟩
    · rw [Bus.loadRange, bind_ok hload]
      exact hrest
    · refine (hasCode_cons ..).mpr ⟨?_, hcode⟩
      have hfirst := hother address (.inl (by omega))
      rw [hfirst, hbytes, if_pos rfl, ofInt_toNat]
    · intro place hp
      rw [List.length_cons] at hp
      rw [hother place (by omega), hbytes, if_neg (by omega)]

end Placing

end Bus

section Lines

/-- A listing shows a line as an error, or as the instruction that its bytes are. -/
def Line.Genuine (line : Line) : Prop :=
  line.text = "ERR" ∨ ∃ (opcode : UInt8) (bytes : List UInt8),
    line.text = (Instruction.ofBytes opcode.toNat bytes).text ∧
    line.hexText = " ".intercalate ((opcode :: bytes).map Hex.upperByte)

/-- The text of an instruction leaves no choice for its bytes. -/
theorem Line.Genuine.hexText {line line' : Line} (hl : Line.Genuine line)
    (hl' : Line.Genuine line') (ht : line.text = line'.text) (he : line.text ≠ "ERR")
    (hh : line.text ≠ Instruction.halt.text) : line.hexText = line'.hexText := by
  obtain ⟨opcode, bytes, htext, hhex⟩ := hl.resolve_left he
  obtain ⟨opcode', bytes', htext', hhex'⟩ := hl'.resolve_left (ht ▸ he)
  have hsame : Instruction.ofBytes opcode.toNat bytes = .ofBytes opcode'.toNat bytes' :=
    Instruction.text_injective (by rw [← htext, ← htext', ht])
  have hlisted : Instruction.ofBytes opcode.toNat bytes ≠ .halt := by
    intro hc
    rw [htext, hc] at hh
    exact hh rfl
  have hcode := Instruction.assemble_ofBytes hlisted
  rw [hsame, Instruction.assemble_ofBytes (hsame ▸ hlisted)] at hcode
  rw [hhex, hhex', Except.ok.inj hcode]

end Lines

namespace Bus

variable {h : Hardware} {bus : Bus h} {address : Int}

section Lines

theorem listOne_genuine {line : Line} {size : Nat} {next : Bus h}
    (hl : Bus.listOne address bus = .ok (line, size) next) : Line.Genuine line := by
  unfold Bus.listOne at hl
  split at hl
  · rename_i operation after ho
    obtain ⟨opcode, bytes, rfl, -⟩ := operationAt_spec ho
    cases hl
    exact .inr ⟨opcode, bytes, rfl, hexText_bytes ..⟩
  · split at hl
    · split at hl
      · cases hl
        exact .inl rfl
      · cases hl
    · cases hl

theorem listUpTo_genuine {last : Int} {count : Nat} {lines : List Line} {next : Bus h}
    (hl : Bus.listUpTo last count address bus = .ok lines next) :
    ∀ line ∈ lines, Line.Genuine line := by
  induction count generalizing address bus lines with
  | zero =>
    cases hl
    exact fun _ hm => absurd hm List.not_mem_nil
  | succ count ih =>
    rw [Bus.listUpTo] at hl
    split at hl
    · obtain ⟨⟨line, size⟩, after, hone, hl⟩ := bind_eq_ok hl
      obtain ⟨rest, last, hrest, hl⟩ := bind_eq_ok hl
      cases hl
      exact List.forall_mem_cons.mpr ⟨listOne_genuine hone, ih hrest⟩
    · cases hl
      exact fun _ hm => absurd hm List.not_mem_nil

theorem disassemble_genuine {start length : Int} {lines : List Line} {next : Bus h}
    (hl : Bus.disassemble start length bus = .ok lines next) :
    ∀ line ∈ lines, Line.Genuine line := by
  obtain ⟨seen, same, -, hl⟩ := bind_eq_ok hl
  obtain ⟨listed, after, hlist, hl⟩ := bind_eq_ok hl
  obtain ⟨log, cleared, -, hl⟩ := bind_eq_ok hl
  cases hl
  exact listUpTo_genuine hlist

end Lines

/-- Decoding inverts assembly, and assembly inverts decoding.  In gap-free memory, where regions may
share a memory, everything that is decoded as an instruction can be assembled, to the very bytes
that it was decoded from.  Every instruction whose operands fit can be assembled; wherever its code
stands in a memory, and it can be loaded wherever there is room for it, it is decoded again.  Lines
of any two listings that show the same instruction show the same bytes. -/
theorem decoding_inverts_assembly {h h' : Hardware} :
    (∀ (bus : Bus h) (address : Nat) operation next, bus.Filled → address < bus.memorySize →
      operationAt address bus = .ok operation next → operation.instruction ≠ .halt →
      ∃ code, operation.instruction.assemble = .ok code ∧ code.length = operation.length ∧
        bus.HasCode address code) ∧
    (∀ instruction : Instruction, instruction.Fits →
      ∃ code, instruction.assemble = .ok code ∧
        (∀ (bus : Bus h) (address : Int), bus.HasCode address code →
          ∃ operation log, operationAt address bus = .ok operation { bus with log } ∧
            operation.instruction = instruction ∧ operation.length = code.length) ∧
        (∀ (bus : Bus h) (address : Int), bus.Separate →
          (∀ i : Nat, i < code.length → (bus.byteAt (address + i)).isSome) →
          ∃ devices, loadRange address code bus = .ok () { bus with devices } ∧
            HasCode { bus with devices } address code)) ∧
    (∀ (bus : Bus h) (bus' : Bus h') start length start' length' lines lines' next next',
      disassemble start length bus = .ok lines next →
      disassemble start' length' bus' = .ok lines' next' →
      ∀ line ∈ lines, ∀ line' ∈ lines', line.text = line'.text →
        line.text ≠ "ERR" → line.text ≠ "HALT" → line.hexText = line'.hexText) := by
  refine ⟨?_, ?_, ?_⟩
  · intro bus address operation next hf ha ho hh
    obtain ⟨opcode, bytes, rfl, hcode⟩ := hf.operationAt ha ho
    exact ⟨opcode :: bytes, Instruction.assemble_ofBytes hh, rfl, hcode⟩
  · intro instruction hf
    obtain ⟨opcode, bytes, hassemble, hlength, hdecode⟩ := hf.assemble
    refine ⟨opcode :: bytes, hassemble, fun bus address hc => ?_, fun bus address hs hm => ?_⟩
    · obtain ⟨log, ho⟩ := hc.operationAt hlength
      exact ⟨_, log, ho, hdecode, rfl⟩
    · obtain ⟨devices, hload, -, hcode, -⟩ := hs.loadRange hm
      exact ⟨devices, hload, hcode⟩
  · intro bus bus' start length start' length' lines lines' next next' hl hl' line hm line' hm'
      ht he hh
    exact (disassemble_genuine hl line hm).hexText (disassemble_genuine hl' line' hm') ht he hh

/-- An instruction that lies across two regions with the same memory, and one with the largest
operands there are. -/
theorem decoding_inverts_assembly_doubled :
    (∃ operation next, operationAt 0 doubled = .ok operation next ∧
      operation.instruction = .move (.literal 2) (.literal 0) ∧
      ∃ code, operation.instruction.assemble = .ok code ∧ code.length = operation.length ∧
        doubled.HasCode (0 : Nat) code) ∧
    (Instruction.jumpUnless 255 (.reference 127)).Fits ∧
      ∃ code, (Instruction.jumpUnless 255 (.reference 127)).assemble = .ok code ∧
        ∀ (bus : Bus bench) (address : Int), bus.HasCode address code →
          ∃ operation log, operationAt address bus = .ok operation { bus with log } ∧
            operation.instruction = .jumpUnless 255 (.reference 127) ∧
            operation.length = code.length := by
  obtain ⟨hback, hforth, -⟩ := @decoding_inverts_assembly bench bench
  constructor
  · exact ⟨_, _, rfl, rfl, hback doubled 0 _ _ doubled_filled (by decide) rfl (by decide)⟩
  · have hfits : (Instruction.jumpUnless 255 (.reference 127)).Fits := ⟨by decide, by decide⟩
    obtain ⟨code, hassemble, hdecode, -⟩ := hforth _ hfits
    exact ⟨hfits, code, hassemble, hdecode⟩

end Bus

end ByteMachine
