import Paulastorm.Mirror.PageCache

namespace Paulastorm.Mirror.PageCache

/-! What each party of the sample cache leaves to the others. -/

variable {state next : State} {label : Label}

/-- The step is one of CPU1. -/
def Label.ofCpu1 : Label → Bool
  | .service | .worker | .write _ | .writer => false
  | _ => true

/-- Chip RAM and the parties on the other processor are left alone. -/
structure Leaves (state next : State) : Prop where
  chip : next.chip = state.chip
  worker : next.worker = state.worker
  writer : next.writer = state.writer
  bumps : next.history.bumps = state.history.bumps

theorem cpu1_leaves (own : label.ofCpu1 = true) (stepped : step label state = some next) :
    Leaves state next := by
  obtain ⟨cache, chip, party, worker, writer, history⟩ := state
  cases label with
  | cpu1 =>
      cases party with
      | idle => cases stepped
      | check | loadMeta =>
          simp only [step, cpu1] at stepped
          split at stepped <;> cases stepped <;> exact ⟨rfl, rfl, rfl, rfl⟩
      | casMeta =>
          simp only [step, cpu1] at stepped
          split at stepped
          · cases stepped
            exact ⟨rfl, rfl, rfl, rfl⟩
          · split at stepped <;> cases stepped <;> exact ⟨rfl, rfl, rfl, rfl⟩
      | _ =>
          cases stepped
          exact ⟨rfl, rfl, rfl, rfl⟩
  | service | worker | write | writer => cases own
  | request | renderBegin =>
      cases party with
      | idle =>
          cases stepped
          exact ⟨rfl, rfl, rfl, rfl⟩
      | _ => cases stepped
  | read =>
      cases party with
      | idle =>
          simp only [step, read] at stepped
          split at stepped <;> cases stepped <;> exact ⟨rfl, rfl, rfl, rfl⟩
      | _ => cases stepped
  | prefetch =>
      cases party with
      | idle =>
          simp only [step, prefetch] at stepped
          split at stepped <;> cases stepped <;> exact ⟨rfl, rfl, rfl, rfl⟩
      | _ => cases stepped

theorem service_leaves (begun : service state = some next) : next.chip = state.chip ∧
    next.writer = state.writer ∧ next.history.bumps = state.history.bumps := by
  obtain ⟨cache, chip, party, worker, writer, history⟩ := state
  cases worker with
  | idle =>
      simp only [service] at begun
      split at begun <;> cases begun <;> exact ⟨rfl, rfl, rfl⟩
  | _ => cases begun

theorem worker_leaves (moved : worker state = some next) : next.chip = state.chip ∧
    next.writer = state.writer ∧
    (next.history.bumps = state.history.bumps ∨ next.history.bumps = 0) := by
  obtain ⟨cache, chip, party, position, writer, history⟩ := state
  cases position with
  | idle => cases moved
  | claim =>
      simp only [worker] at moved
      split at moved
      · cases moved
        exact ⟨rfl, rfl, .inl rfl⟩
      · split at moved <;> cases moved
        · exact ⟨rfl, rfl, .inr rfl⟩
        · exact ⟨rfl, rfl, .inl rfl⟩
  | discard =>
      simp only [worker] at moved
      split at moved
      · cases moved
        exact ⟨rfl, rfl, .inl rfl⟩
      · split at moved <;> cases moved <;> exact ⟨rfl, rfl, .inl rfl⟩
  | copy | publish =>
      simp only [worker] at moved
      split at moved <;> cases moved <;> exact ⟨rfl, rfl, .inl rfl⟩
  | announce =>
      simp only [worker] at moved
      cases moved
      split <;> exact ⟨rfl, rfl, .inl rfl⟩
  | _ =>
      cases moved
      exact ⟨rfl, rfl, .inl rfl⟩

/-- An invalidation that meets no load. -/
theorem writer_leaves (moved : writer state = some next) (idle : state.worker = .idle) :
    next.chip = state.chip ∧ next.worker = state.worker ∧
      next.history.bumps = state.history.bumps := by
  obtain ⟨cache, chip, party, worker, position, history⟩ := state
  cases idle
  cases position with
  | idle => cases moved
  | cas =>
      simp only [writer] at moved
      split at moved
      · cases moved
        exact ⟨rfl, rfl, rfl⟩
      · split at moved <;> cases moved <;> exact ⟨rfl, rfl, rfl⟩
  | _ =>
      cases moved
      exact ⟨rfl, rfl, rfl⟩

theorem write_leaves {bus : BusWrite} (begun : write bus state = some next) :
    next.chip = bus.apply state.chip ∧ next.worker = state.worker ∧
      next.history.bumps = state.history.bumps := by
  obtain ⟨cache, chip, party, worker, position, history⟩ := state
  cases position with
  | idle =>
      simp only [write] at begun
      split at begun <;> cases begun
      exact ⟨rfl, rfl, rfl⟩
  | _ => cases begun

end Paulastorm.Mirror.PageCache
