import ByteMachine.Proofs.Bus.Memory

/-!
The layout of a bus: its regions, and how large a memory each of its devices is.  No access changes
it, neither one that succeeds nor one that fails; so a memory without gaps stays without gaps, and
keeps its size.
-/

namespace ByteMachine

def Device.size? {h : Hardware} : Device h → Option Nat
  | .ram memory => some memory.size
  | .peripheral _ => none

namespace Bus

variable {h : Hardware} {bus next : Bus h}

def layout (bus : Bus h) : List Region × Array (Option Nat) :=
  (bus.regions, bus.devices.map Device.size?)

theorem memorySize_of_layout (hl : next.layout = bus.layout) :
    next.memorySize = bus.memorySize := by
  have hregions : next.regions = bus.regions := congrArg Prod.fst hl
  rw [memorySize, memorySize, hregions]

theorem GapFree.of_layout (hg : bus.GapFree) (hl : next.layout = bus.layout) : next.GapFree := by
  have hregions : next.regions = bus.regions := congrArg Prod.fst hl
  have hsizes : next.devices.map Device.size? = bus.devices.map Device.size? :=
    congrArg Prod.snd hl
  refine ⟨⟨?_, ?_⟩, ?_⟩
  · rw [hregions]
    exact hg.own
  · intro region hr
    rw [hregions] at hr
    obtain ⟨memory, hd, hz⟩ := hg.memory region hr
    have hsize := congrArg (·[region.device]?) hsizes
    simp only [Array.getElem?_map, hd, Option.map_some, Option.map_eq_some_iff] at hsize
    obtain ⟨device, hnext, hsize⟩ := hsize
    cases device with
    | ram other =>
      refine ⟨other, hnext, ?_⟩
      rw [← hz]
      exact Option.some.inj hsize
    | peripheral other => cases hsize
  · rw [hregions, memorySize_of_layout hl]
    exact hg.covered

theorem write_size {memory fresh : Ram} {address data : Int}
    (hw : memory.write address data = .ok fresh) : fresh.size = memory.size := by
  unfold Ram.write at hw
  split at hw
  · split at hw
    · cases hw
      exact Array.size_setIfInBounds
    · cases hw
  · cases hw

theorem layout_setDevice {index : Nat} {old fresh : Device h}
    (hd : bus.devices[index]? = some old) (hs : fresh.size? = old.size?) :
    (bus.setDevice index fresh).layout = bus.layout := by
  refine Prod.ext rfl (Array.ext_getElem? fun place => ?_)
  change ((bus.devices.setIfInBounds index fresh).map Device.size?)[place]? =
    (bus.devices.map Device.size?)[place]?
  rw [Array.getElem?_map, Array.getElem?_map, Array.getElem?_setIfInBounds]
  split
  · rename_i hplace
    subst hplace
    obtain ⟨hin, -⟩ := Array.getElem?_eq_some_iff.mp hd
    rw [if_pos hin, hd, Option.map_some, Option.map_some, hs]
  · rfl

section Access

theorem peek_retains (address : Int) : Retains (layout (h := h)) (Bus.peek address) := by
  intro bus
  unfold Bus.peek
  split
  · rfl
  · split <;> rfl
  · rename_i hl
    obtain ⟨region, -, -, -, hd, -⟩ := locate_eq_some hl
    exact layout_setDevice hd rfl

theorem load_retains (address data : Int) :
    Retains (layout (h := h)) (Bus.load address data) := by
  intro bus
  unfold Bus.load
  split
  · rfl
  · rename_i hl
    obtain ⟨region, -, -, -, hd, -⟩ := locate_eq_some hl
    split
    · rename_i hw
      exact layout_setDevice hd (congrArg some (write_size hw))
    · rfl
  · rename_i hl
    obtain ⟨region, -, -, -, hd, -⟩ := locate_eq_some hl
    exact layout_setDevice hd rfl

theorem logged_retains (kind : AccessKind) (address data : Int) :
    Retains (layout (h := h)) (Bus.logged kind address data) := .modify fun _ => rfl

theorem read_retains (address : Int) : Retains (layout (h := h)) (Bus.read address) :=
  (peek_retains address).bind fun _ => (logged_retains _ _ _).bind fun _ => .pure _

theorem write_retains (address data : Int) :
    Retains (layout (h := h)) (Bus.write address data) :=
  (load_retains address data).bind fun _ => logged_retains _ _ _

theorem receive_retains (channel : Int) : Retains (layout (h := h)) (Bus.receive channel) := by
  intro bus
  unfold Bus.receive
  split <;> rfl

theorem send_retains (channel data : Int) :
    Retains (layout (h := h)) (Bus.send channel data) := by
  intro bus
  unfold Bus.send
  split <;> rfl

theorem takeLog_retains : Retains (layout (h := h)) Bus.takeLog := fun _ => rfl

theorem requireInside_retains (index : Int) :
    Retains (layout (h := h)) (Bus.requireInside index) := by
  intro bus
  unfold Bus.requireInside
  split <;> rfl

theorem peekRange_retains (address : Int) (count : Nat) :
    Retains (layout (h := h)) (Bus.peekRange address count) := by
  induction count generalizing address with
  | zero => exact .pure _
  | succ count ih => exact (peek_retains address).bind fun _ => (ih _).bind fun _ => .pure _

theorem contents_retains : Retains (layout (h := h)) Bus.contents :=
  Retains.get.bind fun bus => peekRange_retains 0 bus.memorySize

theorem readOperandBytes_retains (address : Int) (count : Nat) :
    Retains (layout (h := h)) (Bus.readOperandBytes address count) := by
  induction count generalizing address with
  | zero => exact .pure _
  | succ count ih =>
    refine (requireInside_retains address).bind fun _ => ?_
    exact (read_retains address).bind fun _ => (ih _).bind fun _ => .pure _

theorem decode_retains (opcode address : Int) :
    Retains (layout (h := h)) (Bus.decode opcode address) :=
  (readOperandBytes_retains address _).bind fun _ => .pure _

end Access

end Bus

end ByteMachine
