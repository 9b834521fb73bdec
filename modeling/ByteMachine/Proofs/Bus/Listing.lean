import ByteMachine.Proofs.Bus.Memory

/-!
Listing memory.  Whatever its bytes are, a line that starts inside memory can be listed: as a whole
instruction, or as a byte of its own where the end of memory cuts the instruction off.  Of the bus
nothing but its log is touched, which shows the bytes that were read behind the opcode.
-/

namespace ByteMachine

def Access.reads (address : Int) : List UInt8 → List Access
  | [] => []
  | byte :: rest => ⟨.read, address, byte.toNat⟩ :: reads (address + 1) rest

theorem signed_byte (byte : UInt8) : Hex.signed Hex.upper 2 byte.toNat = Hex.upperByte byte := by
  rw [Hex.signed, if_neg (by omega)]
  rfl

theorem hexText_bytes (opcode : UInt8) (bytes : List UInt8) (instruction : Instruction) :
    (Operation.mk opcode.toNat bytes instruction).hexText =
      " ".intercalate ((opcode :: bytes).map Hex.upperByte) := by
  rw [Operation.hexText, Operation.opcodeHex, signed_byte]
  rfl

section Text

theorem text_mnemonic (instruction : Instruction) :
    ∃ rest, instruction.text = instruction.mnemonic ++ rest := by
  unfold Instruction.text
  cases instruction.arguments with
  | nil => exact ⟨"", String.append_empty.symm⟩
  | cons first rest => exact ⟨_, String.append_assoc ..⟩

theorem text_ne_error (instruction : Instruction) : instruction.text ≠ "ERR" := by
  obtain ⟨rest, ht⟩ := text_mnemonic instruction
  intro he
  have hlist := congrArg String.toList (ht.symm.trans he)
  rw [String.toList_append] at hlist
  have hhead := congrArg List.head? hlist
  cases instruction <;> simp [Instruction.mnemonic] at hhead

end Text

namespace Bus

variable {h : Hardware} {bus : Bus h} {memory : List UInt8}

theorem Displays.readOperandBytes_ok (hm : bus.Displays memory) (count address : Nat)
    (hc : address + count ≤ memory.length) (log : List Access) :
    Bus.readOperandBytes address count { bus with log } =
      .ok ((memory.drop address).take count)
        { bus with log := log ++ Access.reads address ((memory.drop address).take count) } := by
  induction count generalizing address log with
  | zero =>
    change EStateM.Result.ok [] { bus with log } = .ok [] { bus with log := log ++ [] }
    rw [List.append_nil]
  | succ count ih =>
    have hlog := hm.withLog log
    have ha : address < memory.length := by omega
    have hb : memory[address]? = some memory[address] := List.getElem?_eq_getElem ha
    have hrest := ih (address + 1) (by omega) (log ++ [⟨.read, address, memory[address].toNat⟩])
    rw [List.append_assoc] at hrest
    rw [Bus.readOperandBytes, bind_ok (hlog.requireInside_ok ha), bind_ok (hlog.read hb),
      List.drop_eq_getElem_cons ha, List.take_succ_cons]
    exact bind_ok hrest

theorem Displays.readOperandBytes_short (hm : bus.Displays memory) (count address : Nat)
    (ha : address ≤ memory.length) (hc : memory.length < address + count) (log : List Access) :
    Bus.readOperandBytes address count { bus with log } =
      .error (.fault (.indexOutside memory.length memory.length))
        { bus with log := log ++ Access.reads address ((memory.drop address).take count) } := by
  induction count generalizing address log with
  | zero => omega
  | succ count ih =>
    have hlog := hm.withLog log
    rw [Bus.readOperandBytes]
    by_cases hin : address < memory.length
    · have hb : memory[address]? = some memory[address] := List.getElem?_eq_getElem hin
      have hrest := ih (address + 1) hin (by omega)
        (log ++ [⟨.read, address, memory[address].toNat⟩])
      rw [List.append_assoc] at hrest
      rw [bind_ok (hlog.requireInside_ok hin), bind_ok (hlog.read hb),
        List.drop_eq_getElem_cons hin, List.take_succ_cons]
      exact bind_error hrest
    · have heq : address = memory.length := by omega
      have hend := hlog.requireInside_error hin
      rw [heq] at hend ⊢
      rw [List.drop_length, List.take_nil, Access.reads, List.append_nil]
      exact bind_error hend

section Line

variable {address : Nat} {opcode : UInt8}

theorem Displays.listOne_whole (hm : bus.Displays memory) (hb : memory[address]? = some opcode)
    {bytes : List UInt8}
    (hl : address + 1 + Instruction.operandCount opcode.toNat ≤ memory.length)
    (hbytes : bytes = (memory.drop (address + 1)).take (Instruction.operandCount opcode.toNat)) :
    let operation : Operation := ⟨opcode.toNat, bytes, .ofBytes opcode.toNat bytes⟩
    Bus.listOne address bus =
      .ok (⟨address, operation.hexText, operation.instruction.text⟩, operation.length)
        { bus with log := bus.log ++ Access.reads (address + 1 : Nat) bytes } := by
  intro operation
  have hread := hm.readOperandBytes_ok _ _ hl bus.log
  rw [← hbytes] at hread
  have hdecode : Bus.operationAt address bus = .ok operation
      { bus with log := bus.log ++ Access.reads (address + 1 : Nat) bytes } :=
    (bind_ok (hm.peek hb)).trans (bind_ok hread)
  rw [Bus.listOne, hdecode]

theorem Displays.listOne_short (hm : bus.Displays memory) (hb : memory[address]? = some opcode)
    {bytes : List UInt8}
    (hl : memory.length < address + 1 + Instruction.operandCount opcode.toNat)
    (hbytes : bytes = (memory.drop (address + 1)).take (Instruction.operandCount opcode.toNat)) :
    Bus.listOne address bus = .ok (⟨address, Hex.upperByte opcode, "ERR"⟩, 1)
      { bus with log := bus.log ++ Access.reads (address + 1 : Nat) bytes } := by
  have ha : address < memory.length := (List.getElem?_eq_some_iff.mp hb).1
  have hread := hm.readOperandBytes_short _ _ ha hl bus.log
  rw [← hbytes] at hread
  have hdecode : Bus.operationAt address bus = .error _
      { bus with log := bus.log ++ Access.reads (address + 1 : Nat) bytes } :=
    (bind_ok (hm.peek hb)).trans (bind_error hread)
  have hmiss : Failure.isMisaddressed (.fault (.indexOutside memory.length memory.length)) :=
    rfl
  rw [Bus.listOne, hdecode]
  dsimp only
  rw [if_pos hmiss, (hm.withLog _).peek hb]

end Line

theorem Displays.disassemble_one (hm : bus.Displays memory) {address length : Nat} {line : Line}
    {log : List Access} (ha : address < memory.length)
    (hline : Bus.listOne address bus = .ok (line, length) { bus with log }) :
    Bus.disassemble address 1 bus = .ok [line] { bus with log := [] } := by
  have hget : (get : BusM h (Bus h)) bus = .ok bus bus := rfl
  have hend : min ((address : Int) + 1) (bus.memorySize : Int) = address + 1 := by
    rw [hm.size]
    omega
  have hcount : ((address : Int) + 1 - address).toNat = 1 := by omega
  have hlist : Bus.listUpTo ((address : Int) + 1) 1 address bus = .ok [line] { bus with log } := by
    rw [Bus.listUpTo, if_pos (by omega), bind_ok hline]
    rfl
  rw [Bus.disassemble, bind_ok hget, hend, hcount, bind_ok hlist]
  rfl

theorem Displays.disassemble_beyond (hm : bus.Displays memory) {address : Int}
    (ha : (memory.length : Int) ≤ address) :
    Bus.disassemble address 1 bus = .ok [] { bus with log := [] } := by
  have hget : (get : BusM h (Bus h)) bus = .ok bus bus := rfl
  have hend : min (address + 1) (bus.memorySize : Int) = memory.length := by
    rw [hm.size]
    omega
  have hcount : ((memory.length : Int) - address).toNat = 0 := by omega
  rw [Bus.disassemble, bind_ok hget, hend, hcount]
  rfl

end Bus

end ByteMachine
