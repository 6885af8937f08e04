import Paulastorm.Core.Walk

namespace Paulastorm.Core

/-! What a frame asks of its callbacks does not depend on the bytes it is given: not the
addresses, not their number, not their order. -/

/-- A call of `ReadByteFn` or of `InterruptFn`. -/
inductive Ask where
  | read (address : UInt32)
  | interrupt (bits : UInt16)
deriving DecidableEq, Repr

namespace Ask

variable {σ : Type}

def perform (callbacks : Callbacks σ) (host : σ) : Ask → σ
  | .read address => (callbacks.read address host).2
  | .interrupt bits => callbacks.interrupt bits host

def address? : Ask → Option UInt32
  | .read address => some address
  | .interrupt _ => none

/-- Callbacks that only note what is asked of them. -/
def noting : Callbacks (List Ask) where
  read address asks := (0, asks ++ [.read address])
  interrupt bits asks := asks ++ [.interrupt bits]

end Ask

/-- A channel without its sample bytes. -/
def Channel.shape {F D : Type} (c : Channel F D) : Channel F D :=
  { c with curSampleL := 0, curSampleH := 0, curOut := 0, nextOut := 0 }

namespace Paula

variable {F D σ : Type}

def shape (p : Paula F D) : Paula F D := { p with channels := fun ch => (p.channels ch).shape }

theorem shape_updateChannel (p : Paula F D) (ch : Fin 4) (c : Channel F D) :
    (p.updateChannel ch c).shape = p.shape.updateChannel ch c.shape := by
  have channels : (fun other => (Function.update p.channels ch c other).shape) =
      Function.update (fun other => (p.channels other).shape) ch c.shape := by
    funext other
    exact Function.apply_update (fun _ c => c.shape) p.channels ch c other
  simp only [shape, updateChannel, channels]

/-- What a core without sample bytes noted is what the host of another was asked. -/
structure Noted (callbacks : Callbacks σ) (start : σ) (noted : Paula F D × List Ask)
    (done : Paula F D × σ) : Prop where
  core : noted.1 = done.1.shape
  host : done.2 = noted.2.foldl (Ask.perform callbacks) start

variable {callbacks : Callbacks σ} {start : σ} {noted : Paula F D × List Ask}
  {done : Paula F D × σ}

theorem reload_noted (held : Noted callbacks start noted done) (ch : Fin 4) :
    Noted callbacks start (noted.1.reload Ask.noting ch noted.2)
      (done.1.reload callbacks ch done.2) := by
  obtain ⟨core, host⟩ := held
  have left : (done.1.shape.channels ch).curWordsLeft = (done.1.channels ch).curWordsLeft := rfl
  have attached : ∀ c, ((done.1.shape.updateChannel ch c).raise ch).onInterrupt =
      done.1.onInterrupt := fun _ => rfl
  have attached' : ∀ c, ((done.1.updateChannel ch c).raise ch).onInterrupt =
      done.1.onInterrupt := fun _ => rfl
  have raised : ((done.1.updateChannel ch (done.1.channels ch).reloaded).raise ch).shape =
      (done.1.shape.updateChannel ch (done.1.shape.channels ch).reloaded).raise ch := by
    change (shape (updateChannel _ _ _)).raise ch = _
    rw [shape_updateChannel]
    rfl
  simp only [reload, core, left, attached, attached']
  split_ifs
  · refine ⟨raised.symm, ?_⟩
    change callbacks.interrupt _ done.2 = List.foldl _ _ (noted.2 ++ [_])
    rw [List.foldl_append, host]
    rfl
  · exact ⟨raised.symm, host⟩
  · exact ⟨rfl, host⟩

theorem fetchWord_noted (held : Noted callbacks start noted done) (ch : Fin 4) :
    Noted callbacks start (noted.1.fetchWord Ask.noting ch noted.2)
      (done.1.fetchWord callbacks ch done.2) := by
  obtain ⟨core, host⟩ := held
  constructor
  · simp only [fetchWord, core]
    rw [shape_updateChannel]
    rfl
  · change (callbacks.read _ (callbacks.read _ done.2).2).2 =
      List.foldl _ _ ((noted.2 ++ [_]) ++ [_])
    rw [List.foldl_append, List.foldl_append, ← host, core]
    rfl

theorem advance_noted (held : Noted callbacks start noted done) (ch : Fin 4) :
    Noted callbacks start (noted.1.advanceOneSourceSample Ask.noting ch noted.2)
      (done.1.advanceOneSourceSample callbacks ch done.2) := by
  have fetched := fetchWord_noted (reload_noted held ch) ch
  obtain ⟨q, asks⟩ := noted
  obtain ⟨core, host⟩ := held
  dsimp only at core
  subst core
  have boundary : (done.1.shape.channels ch).onLowByte = (done.1.channels ch).onLowByte := rfl
  have read : done.1.shape.read = done.1.read := rfl
  have dmaCon : done.1.shape.dmaCon = done.1.dmaCon := rfl
  simp only [advanceOneSourceSample, read, dmaCon, boundary]
  split_ifs
  · exact ⟨(shape_updateChannel done.1 ch (done.1.channels ch).silence).symm, host⟩
  · exact ⟨(shape_updateChannel done.1 ch (done.1.channels ch).silence).symm, host⟩
  · exact fetched
  · exact ⟨(shape_updateChannel done.1 ch (done.1.channels ch).secondByte).symm, host⟩

variable [Floating D]

theorem catchUp_noted (held : Noted callbacks start noted done) (ch : Fin 4) (rounds : Nat) :
    Noted callbacks start (catchUp Ask.noting ch rounds noted) (catchUp callbacks ch rounds done) := by
  induction rounds generalizing noted done with
  | zero => exact held
  | succ rounds ih =>
      obtain ⟨q, asks⟩ := noted
      obtain ⟨core, host⟩ := held
      dsimp only at core
      subst core
      have phase : (done.1.shape.channels ch).phase = (done.1.channels ch).phase := rfl
      let lowered := { done.1.channels ch with phase := (done.1.channels ch).phase - ofRat 1 }
      have taken : Noted callbacks start (done.1.shape.updateChannel ch lowered.shape, asks)
          (done.1.updateChannel ch lowered, done.2) :=
        ⟨(shape_updateChannel done.1 ch lowered).symm, host⟩
      simp only [catchUp, phase]
      split_ifs
      · exact ih (advance_noted taken ch)
      · exact ⟨rfl, host⟩

theorem addStep_shape (p : Paula F D) (ch : Fin 4) (frame : D) :
    (p.addStep ch frame).shape = p.shape.addStep ch frame := shape_updateChannel _ _ _

variable [Floating F] [Arith F D]

omit [Arith F D] [Floating D] in
theorem pan_shape (toSame toOpp : F) (ch : Fin 4) (mix mix' : F × F) (mono mono' : F)
    (p : Paula F D) :
    (pan toSame toOpp ch mix mono p).2.shape = (pan toSame toOpp ch mix' mono' p.shape).2 := by
  simp only [pan]
  split <;> rfl

theorem mixOut_shape (p : Paula F D) (ch : Fin 4) :
    (p.mixOut ch).2.shape = (p.shape.mixOut ch).2 := shape_updateChannel _ _ _

theorem mixChannel_noted (toSame toOpp : F) (frame : D) {mix mix' : F × F}
    (held : Noted callbacks start noted done) (ch : Fin 4) :
    let turn := mixChannel Ask.noting toSame toOpp frame ((mix, noted.1), noted.2) ch
    let turn' := mixChannel callbacks toSame toOpp frame ((mix', done.1), done.2) ch
    Noted callbacks start (turn.1.2, turn.2) (turn'.1.2, turn'.2) := by
  intro turn turn'
  obtain ⟨q, asks⟩ := noted
  obtain ⟨core, host⟩ := held
  dsimp only at core
  subst core
  have stepped : Noted callbacks start (done.1.shape.addStep ch frame, asks)
      (done.1.addStep ch frame, done.2) := ⟨(addStep_shape done.1 ch frame).symm, host⟩
  have phase : ((done.1.shape.addStep ch frame).channels ch).phase =
      ((done.1.addStep ch frame).channels ch).phase := by
    rw [← addStep_shape]
    rfl
  obtain ⟨core, host⟩ := catchUp_noted stepped ch
    (Arith.rounds F ((done.1.addStep ch frame).channels ch).phase)
  simp only [turn, turn', mixChannel, serviceChannel, phase]
  refine ⟨?_, host⟩
  rw [core, pan_shape toSame toOpp ch mix' mix, mixOut_shape]

theorem mixChannels_noted (toSame toOpp : F) (frame : D) (channels : List (Fin 4)) (mix mix' : F × F)
    (held : Noted callbacks start noted done) :
    let turn := channels.foldl (mixChannel Ask.noting toSame toOpp frame)
      ((mix, noted.1), noted.2)
    let turn' := channels.foldl (mixChannel callbacks toSame toOpp frame) ((mix', done.1), done.2)
    Noted callbacks start (turn.1.2, turn.2) (turn'.1.2, turn'.2) := by
  induction channels generalizing mix mix' noted done with
  | nil => exact held
  | cons ch rest ih => exact ih _ _ (mixChannel_noted toSame toOpp frame held ch)

/-- What one frame asks of its callbacks. -/
def asks (p : Paula F D) : List Ask := (p.shape.render Ask.noting []).2

/-- Whatever the callbacks return, a frame asks the same of them. -/
theorem render_asks (callbacks : Callbacks σ) (p : Paula F D) (host : σ) :
    (p.render callbacks host).2 = p.asks.foldl (Ask.perform callbacks) host := by
  have held : Noted callbacks host (p.beginFrame.shape, []) (p.beginFrame, host) := ⟨rfl, rfl⟩
  let toOpp : F := (ofRat 1 - p.beginFrame.stereoCurrent) * ofRat (1 / 2)
  exact (mixChannels_noted (ofRat 1 - toOpp) toOpp (ofRat 1 / ofRat 48000) (List.finRange 4)
    (ofRat 0, ofRat 0) (ofRat 0, ofRat 0) held).host

/-- The mixer has no part in what a frame asks. -/
theorem asks_dma {p q : Paula F D} (same : p.dma = q.dma) : p.asks = q.asks := by
  have shapes : p.shape.dma = q.shape.dma :=
    congrArg (fun d : DmaState F D => { d with channels := fun ch => (d.channels ch).shape }) same
  exact (render_dma Ask.noting shapes []).2

/-- The addresses that a frame reads, in order. -/
def sampled (p : Paula F D) : List UInt32 := p.asks.filterMap Ask.address?

end Paula

end Paulastorm.Core
