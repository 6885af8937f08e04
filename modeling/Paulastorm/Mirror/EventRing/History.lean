import Paulastorm.Mirror.EventRing

namespace Paulastorm.Mirror.EventRing

/-! What the recorded history of the event ring says about single events. -/

namespace History

variable {history : History} {call : Call} {event : Event} {snapshot : Snapshot}

@[simp] theorem enqueued_append_full :
    (history.append call .full).enqueued = history.enqueued := by
  simp [enqueued, append, Entry.event?]

@[simp] theorem enqueued_append_contended :
    (history.append call .contended).enqueued = history.enqueued := by
  simp [enqueued, append, Entry.event?]

@[simp] theorem enqueued_append_enqueued :
    (history.append call (.enqueued event)).enqueued = history.enqueued ++ [event] := by
  simp [enqueued, append, Entry.event?]

@[simp] theorem locked_append_full :
    (history.append call .full).locked = history.locked ++ [call] := by
  simp [locked, append, Entry.locked?]

@[simp] theorem locked_append_contended :
    (history.append call .contended).locked = history.locked := by
  simp [locked, append, Entry.locked?]

@[simp] theorem locked_append_enqueued :
    (history.append call (.enqueued event)).locked = history.locked ++ [call] := by
  simp [locked, append, Entry.locked?]

@[simp] theorem refusals_append_full :
    (history.append call .full).refusals = history.refusals + 1 := by
  simp [refusals, append, Entry.refused, Entry.event?]

@[simp] theorem refusals_append_contended :
    (history.append call .contended).refusals = history.refusals + 1 := by
  simp [refusals, append, Entry.refused, Entry.event?]

@[simp] theorem refusals_append_enqueued :
    (history.append call (.enqueued event)).refusals = history.refusals := by
  simp [refusals, append, Entry.refused, Entry.event?]

@[simp] theorem unread_append_full :
    (history.append call .full).unread = history.unread := by
  rw [unread, enqueued_append_full]
  rfl

@[simp] theorem unread_append_contended :
    (history.append call .contended).unread = history.unread := by
  rw [unread, enqueued_append_contended]
  rfl

/-- What a history means for the events of the ring, by their capture number. -/
structure Valid (history : History) : Prop where
  retiredBound : history.retired.length ≤ history.enqueued.length
  events : ∀ entry ∈ history.log, ∀ event, entry.fate = .enqueued event →
    ∃ ticks, event = entry.call.event ticks
  peeked : ∀ event, history.peeked = some event → history.unread.head? = some event
  popped : ∀ (index : Nat) event,
    history.retired[index]? = some (.popped (some event)) → history.enqueued[index]? = some event
  skipped : ∀ (index number : Nat), history.retired[index]? = some (.skipped number) ↔
    ∃ cut, history.cuts[number]? = some cut ∧ cut.first ≤ index ∧ index < cut.last
  cutRetired : ∀ cut ∈ history.cuts, cut.last ≤ history.retired.length
  cutCalls : ∀ cut ∈ history.cuts, cut.calls ≤ history.log.length
  cutLast : ∀ cut ∈ history.cuts,
    cut.last = ((history.log.take cut.calls).filterMap Entry.event?).length
  cutSkipped : ∀ cut ∈ history.cuts, cut.first ≤ cut.last ∧
    cut.snapshot.skipped = UInt32.ofNat (cut.last - cut.first)
  cutShadow : ∀ cut ∈ history.cuts, cut.snapshot.toLatest =
    .ofCalls ((history.log.take cut.calls).filterMap Entry.locked?)

theorem Valid.unread_length (valid : history.Valid) :
    history.retired.length + history.unread.length = history.enqueued.length := by
  have bounded := valid.retiredBound
  rw [unread, List.length_drop]
  omega

theorem Valid.unread_append_enqueued (valid : history.Valid) :
    (history.append call (.enqueued event)).unread = history.unread ++ [event] := by
  rw [unread, enqueued_append_enqueued]
  exact List.drop_append_of_le_length valid.retiredBound

theorem unread_pop : history.pop.unread = history.unread.tail := by
  simp only [unread, pop, List.length_append, List.length_singleton, List.tail_drop]
  rfl

theorem Valid.unread_cut (valid : history.Valid) : (history.cut snapshot).unread = [] := by
  simp only [unread, cut, List.length_append, List.length_replicate]
  exact List.drop_eq_nil_of_le (Nat.le_of_eq (valid.unread_length).symm)

theorem head_unread : history.unread.head? = history.enqueued[history.retired.length]? :=
  List.head?_drop

theorem empty_valid : History.empty.Valid := by
  constructor <;> simp [empty, enqueued, unread]

/-- A new entry of any fate leaves what is known about older ones. -/
theorem Valid.afterAppend (valid : history.Valid) {fate : Fate}
    (fresh : ∀ event, fate = .enqueued event → ∃ ticks, event = call.event ticks) :
    (history.append call fate).Valid := by
  obtain ⟨more, grown⟩ : ∃ more, (history.append call fate).enqueued = history.enqueued ++ more :=
    ⟨[⟨call, fate⟩].filterMap Entry.event?, by simp only [enqueued, append, List.filterMap_append]⟩
  have kept : ∀ cut ∈ history.cuts,
      (history.append call fate).log.take cut.calls = history.log.take cut.calls :=
    fun cut member => List.take_append_of_le_length (valid.cutCalls cut member)
  refine {
    retiredBound := ?_, events := ?_, peeked := ?_, popped := ?_, skipped := valid.skipped
    cutRetired := valid.cutRetired, cutCalls := ?_, cutLast := ?_, cutSkipped := valid.cutSkipped
    cutShadow := ?_ }
  · rw [grown, List.length_append]
    exact Nat.le_add_right_of_le valid.retiredBound
  · intro entry member
    rcases List.mem_append.mp member with old | last
    · exact valid.events entry old
    · rw [List.mem_singleton] at last
      subst last
      exact fresh
  · intro event found
    have front := valid.peeked event found
    rw [head_unread] at front ⊢
    rw [grown]
    exact List.getElem?_append_left (List.getElem?_eq_some_iff.mp front).1 ▸ front
  · intro index event found
    have stored := valid.popped index event found
    rw [grown]
    exact List.getElem?_append_left (List.getElem?_eq_some_iff.mp stored).1 ▸ stored
  · intro cut member
    exact Nat.le_trans (valid.cutCalls cut member) (by simp [append])
  · intro cut member
    rw [kept cut member]
    exact valid.cutLast cut member
  · intro cut member
    rw [kept cut member]
    exact valid.cutShadow cut member

/-- Looking at the front event changes nothing but the copy. -/
theorem Valid.afterPeek (valid : history.Valid) (front : history.unread.head? = some event) :
    { history with peeked := some event }.Valid :=
  { valid with
    peeked := fun copy found => by
      cases found
      exact front }

theorem Valid.afterPop (valid : history.Valid) (nonempty : history.unread ≠ []) :
    history.pop.Valid := by
  have room : history.retired.length < history.enqueued.length := by
    have total := valid.unread_length
    have positive := List.length_pos_iff.mpr nonempty
    omega
  refine { valid with
    retiredBound := ?_, peeked := ?_, popped := ?_, skipped := ?_, cutRetired := ?_ }
  · simp only [pop, List.length_append, List.length_singleton]
    exact room
  · intro event found
    cases found
  · intro index event found
    simp only [pop, List.getElem?_append] at found
    split at found
    · exact valid.popped index event found
    · rename_i beyond
      have last : index = history.retired.length := by
        have inside := (List.getElem?_eq_some_iff.mp found).1
        simp only [List.length_singleton] at inside
        omega
      subst last
      simp only [Nat.sub_self, List.getElem?_cons_zero, Option.some.injEq,
        Retirement.popped.injEq] at found
      have front := valid.peeked event found
      rw [head_unread] at front
      exact front
  · intro index number
    have old := valid.skipped index number
    rw [← show history.cuts = history.pop.cuts from rfl, ← old]
    simp only [pop, List.getElem?_append]
    split
    · exact Iff.rfl
    · rename_i beyond
      constructor
      · intro found
        have inside := (List.getElem?_eq_some_iff.mp found).1
        simp only [List.length_singleton] at inside
        have last : index - history.retired.length = 0 := by omega
        simp [last] at found
      · intro found
        exact absurd (List.getElem?_eq_some_iff.mp found).1 beyond
  · intro cut member
    exact Nat.le_trans (valid.cutRetired cut member) (by simp [pop])

/-- A snapshot of the shadow of every call that got the lock retires the rest. -/
theorem Valid.afterCut (valid : history.Valid)
    (shadow : snapshot.toLatest = .ofCalls history.locked)
    (skipped : snapshot.skipped = UInt32.ofNat history.unread.length) :
    (history.cut snapshot).Valid := by
  have total := valid.unread_length
  have all : history.log.take history.log.length = history.log := List.take_length
  have member_cut : ∀ cut ∈ (history.cut snapshot).cuts, cut ∈ history.cuts ∨
      cut = ⟨snapshot, history.log.length, history.retired.length, history.enqueued.length⟩ := by
    intro cut member
    simpa [History.cut] using member
  refine { valid with
    retiredBound := ?_, peeked := ?_, popped := ?_, skipped := ?_, cutRetired := ?_
    cutCalls := ?_, cutLast := ?_, cutSkipped := ?_, cutShadow := ?_ }
  · simp only [History.cut, List.length_append, List.length_replicate]
    exact Nat.le_of_eq total
  · intro event found
    cases found
  · intro index event found
    simp only [History.cut, List.getElem?_append] at found
    split at found
    · exact valid.popped index event found
    · rw [List.getElem?_replicate] at found
      split at found <;> cases found
  · intro index number
    have old := valid.skipped index number
    simp only [History.cut, List.getElem?_append, List.getElem?_replicate]
    by_cases retired : index < history.retired.length
    · simp only [if_pos retired, old]
      by_cases earlier : number < history.cuts.length
      · simp only [if_pos earlier]
      · rw [if_neg earlier, List.getElem?_eq_none (Nat.le_of_not_lt earlier)]
        constructor
        · rintro ⟨cut, found, _⟩
          cases found
        · rintro ⟨cut, found, lower, _⟩
          have zero : number - history.cuts.length = 0 := by
            have inside := (List.getElem?_eq_some_iff.mp found).1
            simp only [List.length_singleton] at inside
            omega
          simp only [zero, List.getElem?_cons_zero, Option.some.injEq] at found
          subst found
          exact absurd retired (Nat.not_lt.mpr lower)
    · simp only [if_neg retired]
      by_cases inside : index - history.retired.length < history.unread.length
      · simp only [if_pos inside, Option.some.injEq, Retirement.skipped.injEq]
        constructor
        · rintro rfl
          refine ⟨⟨snapshot, history.log.length, history.retired.length,
            history.enqueued.length⟩, by simp, Nat.le_of_not_lt retired, ?_⟩
          change index < history.enqueued.length
          omega
        · rintro ⟨cut, found, _, upper⟩
          split at found
          · have member := List.mem_of_getElem? found
            have before := valid.cutRetired cut member
            omega
          · have bound := (List.getElem?_eq_some_iff.mp found).1
            simp only [List.length_singleton] at bound
            omega
      · simp only [if_neg inside, reduceCtorEq, false_iff, not_exists, not_and]
        intro cut found _ upper
        split at found
        · have before := valid.cutRetired cut (List.mem_of_getElem? found)
          omega
        · have bound := (List.getElem?_eq_some_iff.mp found).1
          simp only [List.length_singleton] at bound
          have zero : number - history.cuts.length = 0 := by omega
          simp only [zero, List.getElem?_cons_zero, Option.some.injEq] at found
          subst found
          change index < history.enqueued.length at upper
          omega
  · intro cut member
    have length : (history.cut snapshot).retired.length = history.enqueued.length := by
      simpa [History.cut] using total
    rw [length]
    rcases member_cut cut member with old | rfl
    · exact Nat.le_trans (valid.cutRetired cut old) valid.retiredBound
    · exact Nat.le_refl _
  · intro cut member
    rcases member_cut cut member with old | rfl
    · exact valid.cutCalls cut old
    · exact Nat.le_refl _
  · intro cut member
    rcases member_cut cut member with old | rfl
    · exact valid.cutLast cut old
    · change _ = ((history.log.take history.log.length).filterMap Entry.event?).length
      rw [all]
      rfl
  · intro cut member
    rcases member_cut cut member with old | rfl
    · exact valid.cutSkipped cut old
    · refine ⟨valid.retiredBound, skipped.trans (congrArg UInt32.ofNat ?_)⟩
      exact List.length_drop
  · intro cut member
    rcases member_cut cut member with old | rfl
    · exact valid.cutShadow cut old
    · change _ = Latest.ofCalls ((history.log.take history.log.length).filterMap Entry.locked?)
      rw [all]
      exact shadow

end History

end Paulastorm.Mirror.EventRing
