import Paulastorm.Core.Render

namespace Paulastorm.Core

/-! What rendering does with its callbacks.

Rendering never looks at the host, so two hosts that answer alike render alike.
The addresses it reads do not depend on the bytes it is given.  It latches no
register and only raises audio interrupt requests.
-/

section Simulation

variable {F D σ τ : Type}

/-- The first host follows the second until it has gone `bad`, and stays bad. -/
structure Follows (first : Callbacks σ) (second : Callbacks τ) (bad : σ → Prop)
    (related : σ → τ → Prop) : Prop where
  readBad : ∀ address host, bad host → bad (first.read address host).2
  interruptBad : ∀ bits host, bad host → bad (first.interrupt bits host)
  read : ∀ address host other, related host other → bad (first.read address host).2 ∨
    ((first.read address host).1 = (second.read address other).1 ∧
      related (first.read address host).2 (second.read address other).2)
  interrupt : ∀ bits host other, related host other →
    related (first.interrupt bits host) (second.interrupt bits other)

/-- The two computations agree, unless the first host has gone bad. -/
def Agrees {α : Type} (bad : σ → Prop) (related : σ → τ → Prop) (x : α × σ) (y : α × τ) : Prop :=
  bad x.2 ∨ (x.1 = y.1 ∧ related x.2 y.2)

end Simulation

namespace Paula

variable {F D σ τ : Type} {first : Callbacks σ} {second : Callbacks τ} {bad : σ → Prop}
  {related : σ → τ → Prop}

theorem reload_bad (follows : Follows first second bad related) (p : Paula F D) (ch : Fin 4)
    (host : σ) (gone : bad host) : bad (p.reload first ch host).2 := by
  simp only [reload]
  split_ifs
  · exact follows.interruptBad _ _ gone
  · exact gone
  · exact gone

theorem reload_agrees (follows : Follows first second bad related) (p : Paula F D) (ch : Fin 4)
    {host : σ} {other : τ} (same : related host other) :
    (p.reload first ch host).1 = (p.reload second ch other).1 ∧
      related (p.reload first ch host).2 (p.reload second ch other).2 := by
  simp only [reload]
  split_ifs
  · exact ⟨rfl, follows.interrupt _ _ _ same⟩
  · exact ⟨rfl, same⟩
  · exact ⟨rfl, same⟩

theorem fetchWord_agrees (follows : Follows first second bad related) (p : Paula F D) (ch : Fin 4)
    {host : σ} {other : τ} (same : related host other) :
    Agrees bad related (p.fetchWord first ch host) (p.fetchWord second ch other) := by
  rcases follows.read (p.channels ch).curPtr _ _ same with gone | ⟨low, between⟩
  · exact .inl (follows.readBad _ _ gone)
  rcases follows.read ((p.channels ch).curPtr + 1) _ _ between with gone | ⟨high, after⟩
  · exact .inl gone
  · exact .inr ⟨by simp only [fetchWord, low, high], after⟩

theorem advance_bad (follows : Follows first second bad related) (p : Paula F D) (ch : Fin 4)
    (host : σ) (gone : bad host) : bad (p.advanceOneSourceSample first ch host).2 := by
  simp only [advanceOneSourceSample]
  split_ifs
  · exact gone
  · exact gone
  · exact follows.readBad _ _ (follows.readBad _ _ (reload_bad follows p ch host gone))
  · exact gone

/-- What the callbacks preserve, a source sample preserves. -/
theorem advance_host (callbacks : Callbacks σ) (holds : σ → Prop)
    (read : ∀ address host, holds host → holds (callbacks.read address host).2)
    (interrupt : ∀ bits host, holds host → holds (callbacks.interrupt bits host))
    (p : Paula F D) (ch : Fin 4) {host : σ} (start : holds host) :
    holds (p.advanceOneSourceSample callbacks ch host).2 := by
  have follows : Follows callbacks callbacks holds fun _ _ => False :=
    ⟨read, interrupt, fun _ _ _ => False.elim, fun _ _ _ => False.elim⟩
  exact advance_bad follows p ch host start

theorem advance_agrees (follows : Follows first second bad related) (p : Paula F D) (ch : Fin 4)
    {host : σ} {other : τ} (same : related host other) :
    Agrees bad related (p.advanceOneSourceSample first ch host)
      (p.advanceOneSourceSample second ch other) := by
  simp only [advanceOneSourceSample]
  split_ifs
  · exact .inr ⟨rfl, same⟩
  · exact .inr ⟨rfl, same⟩
  · obtain ⟨core, reloaded⟩ := reload_agrees follows p ch same
    rw [core]
    exact fetchWord_agrees follows _ ch reloaded
  · exact .inr ⟨rfl, same⟩

variable [Floating D]

theorem catchUp_bad (follows : Follows first second bad related) (ch : Fin 4) (rounds : Nat)
    (p : Paula F D) (host : σ) (gone : bad host) : bad (catchUp first ch rounds (p, host)).2 := by
  induction rounds generalizing p host with
  | zero => exact gone
  | succ rounds ih =>
      simp only [catchUp]
      split_ifs
      · exact ih _ _ (advance_bad follows _ ch host gone)
      · exact gone

theorem catchUp_agrees (follows : Follows first second bad related) (ch : Fin 4) (rounds : Nat)
    (p : Paula F D) {host : σ} {other : τ} (same : related host other) :
    Agrees bad related (catchUp first ch rounds (p, host)) (catchUp second ch rounds (p, other)) := by
  induction rounds generalizing p host other with
  | zero => exact .inr ⟨rfl, same⟩
  | succ rounds ih =>
      simp only [catchUp]
      split_ifs
      · generalize p.updateChannel ch _ = taken
        rcases advance_agrees follows taken ch same with gone | ⟨core, after⟩
        · exact .inl (catchUp_bad follows ch rounds _ _ gone)
        · have next := ih (taken.advanceOneSourceSample first ch host).1 after
          rw [core] at next
          rw [← Prod.eta (taken.advanceOneSourceSample first ch host), core]
          exact next
      · exact .inr ⟨rfl, same⟩

variable [Floating F] [Arith F D]

theorem serviceChannel_bad (follows : Follows first second bad related) (p : Paula F D)
    (ch : Fin 4) (frame : D) (host : σ) (gone : bad host) :
    bad (p.serviceChannel first ch frame host).2 :=
  catchUp_bad follows ch _ _ host gone

theorem serviceChannel_agrees (follows : Follows first second bad related) (p : Paula F D)
    (ch : Fin 4) (frame : D) {host : σ} {other : τ} (same : related host other) :
    Agrees bad related (p.serviceChannel first ch frame host)
      (p.serviceChannel second ch frame other) := by
  rcases catchUp_agrees follows ch (Arith.rounds F ((p.addStep ch frame).channels ch).phase)
    (p.addStep ch frame) same with gone | ⟨core, after⟩
  · exact .inl gone
  · exact .inr ⟨congrArg (mixOut · ch) core, after⟩

theorem mixChannels_bad (follows : Follows first second bad related) (toSame toOpp : F) (frame : D)
    (channels : List (Fin 4)) (mix : ((F × F) × Paula F D) × σ) (gone : bad mix.2) :
    bad (channels.foldl (mixChannel first toSame toOpp frame) mix).2 := by
  induction channels generalizing mix with
  | nil => exact gone
  | cons ch rest ih => exact ih _ (serviceChannel_bad follows _ ch frame _ gone)

theorem mixChannels_agrees (follows : Follows first second bad related) (toSame toOpp : F)
    (frame : D) (channels : List (Fin 4)) {mix : ((F × F) × Paula F D) × σ}
    {mix' : ((F × F) × Paula F D) × τ} (start : Agrees bad related mix mix') :
    Agrees bad related (channels.foldl (mixChannel first toSame toOpp frame) mix)
      (channels.foldl (mixChannel second toSame toOpp frame) mix') := by
  induction channels generalizing mix mix' with
  | nil => exact start
  | cons ch rest ih =>
      obtain ⟨⟨out, p⟩, host⟩ := mix
      obtain ⟨core', other⟩ := mix'
      rcases start with gone | ⟨core, same⟩
      · exact .inl (mixChannels_bad follows toSame toOpp frame (ch :: rest) _ gone)
      · cases core
        refine ih ?_
        rcases serviceChannel_agrees follows p ch frame same with gone | ⟨served, after⟩
        · exact .inl gone
        · exact .inr ⟨congrArg (fun served : F × Paula F D =>
            pan toSame toOpp ch out served.1 served.2) served, after⟩

/-- What the callbacks preserve, rendering preserves. -/
theorem render_host (callbacks : Callbacks σ) (holds : σ → Prop)
    (read : ∀ address host, holds host → holds (callbacks.read address host).2)
    (interrupt : ∀ bits host, holds host → holds (callbacks.interrupt bits host))
    (p : Paula F D) {host : σ} (start : holds host) : holds (p.render callbacks host).2 := by
  have follows : Follows callbacks callbacks holds fun _ _ => False :=
    ⟨read, interrupt, fun _ _ _ => False.elim, fun _ _ _ => False.elim⟩
  exact mixChannels_bad follows _ _ _ _ _ start

/-- Rendering with a host that follows another renders the same frame and the
same state, unless the host goes bad on the way. -/
theorem render_agrees (follows : Follows first second bad related) (p : Paula F D) {host : σ}
    {other : τ} (same : related host other) :
    Agrees bad related (p.render first host) (p.render second other) :=
  mixChannels_agrees follows _ _ _ _ (.inr ⟨rfl, same⟩)

end Paula

end Paulastorm.Core
