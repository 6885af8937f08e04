import Paulastorm.Core.Callbacks
import Paulastorm.Core.Keeps
import Paulastorm.Library.Transition

namespace Paulastorm.Core

/-! The DMA walk of one channel as blocks of samples.

A machine takes the core apart into the steps that `render` is made of, so that register
writes may fall between any two source samples.  Beside the core it keeps what the channel
ought to play, told from the latched registers alone. -/

open Library

/-- A call of `ReadByteFn`, with the byte it returned, or of `InterruptFn`. -/
inductive Call where
  | read (address : UInt32) (byte : UInt8)
  | interrupt (bits : UInt16)
deriving Repr, DecidableEq

namespace Call

def asRead : Call → Option (UInt32 × UInt8)
  | .read address byte => some (address, byte)
  | .interrupt _ => none

def asInterrupt : Call → Option UInt16
  | .read _ _ => none
  | .interrupt bits => some bits

end Call

/-- The callbacks with a record of their calls. -/
def Callbacks.recording {σ : Type} (callbacks : Callbacks σ) : Callbacks (σ × List Call) where
  read address recorded :=
    let (byte, host) := callbacks.read address recorded.1
    (byte, host, recorded.2 ++ [.read address byte])
  interrupt bits recorded :=
    (callbacks.interrupt bits recorded.1, recorded.2 ++ [.interrupt bits])

theorem recording_follows {σ : Type} (callbacks : Callbacks σ) :
    Follows callbacks.recording callbacks (fun _ => False) fun recorded host =>
      recorded.1 = host where
  readBad _ _ absurdity := absurdity
  interruptBad _ _ absurdity := absurdity
  read := by
    rintro address recorded _ rfl
    exact .inr ⟨rfl, rfl⟩
  interrupt := by
    rintro bits recorded _ rfl
    rfl

/-- A block: its location and its length in words. -/
structure Block where
  loc : UInt32
  words : Nat
deriving Repr, DecidableEq

namespace Block

/-- The consecutive bytes of a block; addresses wrap at 2^32. -/
def addresses (block : Block) : List UInt32 :=
  (List.range (2 * block.words)).map fun offset => block.loc + UInt32.ofNat offset

@[simp] theorem addresses_length (block : Block) : block.addresses.length = 2 * block.words := by
  simp [addresses]

theorem addresses_succ (loc : UInt32) (words : Nat) :
    addresses ⟨loc, words + 1⟩ = loc :: (loc + 1) :: addresses ⟨loc + 2, words⟩ := by
  have shifted : ∀ offset : Nat, loc + UInt32.ofNat (offset + 1 + 1) =
      loc + 2 + UInt32.ofNat offset := by
    intro offset
    rw [show offset + 1 + 1 = 2 + offset by omega, UInt32.ofNat_add, ← UInt32.add_assoc]
    rfl
  have twice : 2 * (words + 1) = 2 * words + 1 + 1 := by omega
  simp only [addresses, twice, List.range_succ_eq_map, List.map_cons, List.map_map,
    Function.comp_def, Nat.succ_eq_add_one, shifted]
  simp

/-- The words of several blocks. -/
def total (blocks : List Block) : Nat := (blocks.map words).sum

theorem length_flatMap_addresses (blocks : List Block) :
    (blocks.flatMap addresses).length = 2 * total blocks := by
  induction blocks with
  | nil => rfl
  | cons block rest ih =>
      rw [List.flatMap_cons, List.length_append, addresses_length, ih]
      simp only [total, List.map_cons, List.sum_cons]
      omega

end Block

namespace Paula

variable {F D σ : Type}

/-- The latched pair: what the next block of the channel would be. -/
def latched (p : Paula F D) (ch : Fin 4) : Block :=
  ⟨(p.channels ch).locPtrLatched, (p.channels ch).lenWordsLatched.toNat⟩

section Steps

variable [Floating F] [Floating D] [Arith F D]

def lowered (p : Paula F D) (ch : Fin 4) : Paula F D :=
  p.updateChannel ch { p.channels ch with phase := (p.channels ch).phase - ofRat 1 }

/-- The body of the loop of `serviceChannel_`: 1.0 of phase for one source sample. -/
def takeSample (callbacks : Callbacks σ) (p : Paula F D) (ch : Fin 4) (host : σ) :
    Paula F D × σ :=
  (p.lowered ch).advanceOneSourceSample callbacks ch host

/-- The core after the channel's glides, whatever it adds to the mix. -/
def mixed (p : Paula F D) (ch : Fin 4) : Paula F D :=
  (pan (ofRat 0) (ofRat 0) ch (ofRat 0, ofRat 0) (ofRat 0) (p.mixOut ch).2).2

end Steps

end Paula

namespace Blocks

/-- One channel under observation: the core and its host, the calls made for the channel,
the number of its source samples, and the blocks it has begun. -/
structure State (F D σ : Type) where
  core : Paula F D
  host : σ
  calls : List Call
  advanced : Nat
  blocks : List Block

inductive Label (D : Type) where
  | beginFrame
  | elapse (channel : Fin 4) (samplesPerOutFrame : D)
  | advance (channel : Fin 4)
  | mix (channel : Fin 4)
  | write (addr : UInt32) (value : UInt16)
  | setLoop (channel : Fin 4) (loc : UInt32) (lenWords : UInt16)

namespace State

variable {F D σ : Type} (state : State F D σ)

/-- A word is due and every word of the blocks begun has been fetched. -/
def blockEnds : Prop := state.advanced = 2 * Block.total state.blocks

instance : Decidable state.blockEnds := inferInstanceAs (Decidable (_ = _))

def reads : List (UInt32 × UInt8) := state.calls.filterMap Call.asRead

/-- The bytes fetched, as samples. -/
def samples : List Int8 := state.reads.map fun read => read.2.toInt8

def interrupts : List UInt16 := state.calls.filterMap Call.asInterrupt

/-- The words fetched: one for every two source samples, the first at once. -/
def fetched : Nat := (state.advanced + 1) / 2

end State

section Machine

variable {F D σ : Type} [Floating F] [Floating D] [Arith F D] (callbacks : Callbacks σ)
  (ch : Fin 4)

def step (label : Label D) (state : State F D σ) : State F D σ :=
  match label with
  | .beginFrame => { state with core := state.core.beginFrame }
  | .elapse other samplesPerOutFrame =>
      { state with core := state.core.addStep other samplesPerOutFrame }
  | .advance other =>
      let taken := state.core.takeSample callbacks.recording other (state.host, state.calls)
      if other = ch then
        { core := taken.1
          host := taken.2.1
          calls := taken.2.2
          advanced := state.advanced + 1
          blocks :=
            if state.blockEnds then state.blocks ++ [state.core.latched ch] else state.blocks }
      else { state with core := taken.1, host := taken.2.1 }
  | .mix other => { state with core := state.core.mixed other }
  | .write addr value => { state with core := state.core.writeRegister16 addr value }
  | .setLoop other loc lenWords => { state with core := state.core.setLoop other loc lenWords }

def machine : Machine (State F D σ) (Label D) where
  step label state := some (step callbacks ch label state)

/-- Register writes leave the channel's DMA on. -/
def KeepsOn (label : Label D) (state : State F D σ) : Prop :=
  match label with
  | .write addr value => dmaOn (state.core.writeRegister16 addr value).dmaCon ch = true
  | _ => True

/-- After the write that turned the channel on. -/
def start (p : Paula F D) (host : σ) : State F D σ where
  core := p
  host := host
  calls := []
  advanced := 0
  blocks := [p.latched ch]

end Machine

end Blocks

end Paulastorm.Core
