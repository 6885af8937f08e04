import Paulastorm.Lru.Invariant

namespace Paulastorm.Lru

/-! The lookup cache over every sequence of its operations. -/

open Library

/-- What every operation keeps. -/
structure Sound (ways sets : Nat) (units : UInt32 → UInt64 → Prop) (state : State) : Prop where
  offers : Offers ways sets state.cache
  placed : Placed ways sets units state.cache.entry
  history : ∀ address entryPoint, carried state.events address = some entryPoint ↔
    Holds ways sets state.cache.entry address entryPoint
  recent : ∀ set < sets, ∀ way, state.recent set = some way → way < ways ∧
    ((state.cache.entry (set * ways + way)).m68k ≠ emptyTag →
      offered (state.cache.alloc set) way = false)

variable {ways sets : Nat} {units : UInt32 → UInt64 → Prop} {state : State}

theorem start_sound (configured : Configured ways sets) (memory : Cache) :
    Sound ways sets units (start ways sets memory) := by
  have empty : ∀ index < sets * ways, (start ways sets memory).cache.entry index = .empty :=
    fun index inside => if_pos inside
  refine ⟨?_, ?_, ?_, ?_⟩
  · intro set inside
    have full : (start ways sets memory).cache.alloc set = 0xffffffff := if_pos inside
    rw [full]
    exact ⟨0, configured.positive, by decide⟩
  · refine ⟨?_, ?_, ?_, ?_⟩
    · intro index inside proper
      rw [empty index inside] at proper
      exact absurd rfl proper
    · intro index inside proper
      rw [empty index inside] at proper
      exact absurd rfl proper
    · intro index inside _
      rw [empty index inside]
      rfl
    · intro index inside _ _ proper
      rw [empty index inside] at proper
      exact absurd rfl proper
  · intro address entryPoint
    constructor
    · intro absurdity
      cases absurdity
    · rintro ⟨proper, index, inside, entry⟩
      rw [empty index inside] at entry
      exact absurd (congrArg Entry.m68k entry).symm proper
  · intro _ _ _ absurdity
    cases absurdity

/-- Looking up changes the replacement word of one set only. -/
theorem find_sound (configured : Configured ways sets) (sound : Sound ways sets units state)
    (address : UInt32) : Sound ways sets units (step ways sets (.find address) state) := by
  have set : setOf sets address < sets := Nat.mod_lt _ configured.sets
  cases found : wayOf ways sets state.cache address with
  | none =>
      simp only [step, findBlock, found]
      exact sound
  | some way =>
      obtain ⟨inside, tag⟩ := wayOf_eq_some found
      simp only [step, findBlock, found]
      refine ⟨touch_offers configured inside sound.offers, sound.placed, sound.history, ?_⟩
      intro other otherInside recentWay isRecent
      dsimp only at isRecent ⊢
      by_cases here : other = setOf sets address
      · subst here
        rw [Function.update_self] at isRecent
        split at isRecent
        next => cases isRecent
        next =>
          cases isRecent
          exact ⟨inside, fun _ => (touch_alloc_self configured inside).2⟩
      · rw [Function.update_of_ne here] at isRecent
        rw [touch_alloc_of_ne here]
        exact sound.recent other otherInside recentWay isRecent

/-- Emptying an entry, with the history told accordingly. -/
theorem release_sound (configured : Configured ways sets) (sound : Sound ways sets units state)
    {index : Nat} (inside : index < sets * ways) (event : Event)
    (told : ∀ address entryPoint, carried (event :: state.events) address = some entryPoint ↔
      carried state.events address = some entryPoint ∧ address ≠ (state.cache.entry index).m68k) :
    Sound ways sets units
      { state with
        cache := release state.cache index (index / ways) (index % ways)
        events := event :: state.events } := by
  have positive := configured.positive
  have small := configured.word
  have way : index % ways < ways := Nat.mod_lt _ positive
  refine ⟨release_offers configured way sound.offers, sound.placed.empty, ?_, ?_⟩
  · intro address entryPoint
    rw [told, sound.history]
    constructor
    · rintro ⟨⟨proper, held, heldInside, entry⟩, other⟩
      refine ⟨proper, held, heldInside, ?_⟩
      have away : held ≠ index := by
        rintro rfl
        rw [entry] at other
        exact other rfl
      exact (Function.update_of_ne away _ _).trans entry
    · rintro ⟨proper, held, heldInside, entry⟩
      change Function.update state.cache.entry index .empty held = _ at entry
      have away : held ≠ index := by
        rintro rfl
        rw [Function.update_self] at entry
        exact proper (congrArg Entry.m68k entry).symm
      rw [Function.update_of_ne away] at entry
      refine ⟨⟨proper, held, heldInside, entry⟩, ?_⟩
      intro same
      apply away
      apply sound.placed.once held heldInside index inside
      · rw [entry]
        exact proper
      · rw [entry]
        exact same
  · intro set setInside recentWay isRecent
    obtain ⟨recentInside, offeredNot⟩ := sound.recent set setInside recentWay isRecent
    refine ⟨recentInside, fun held => ?_⟩
    have away : set * ways + recentWay ≠ index := by
      rintro same
      change (Function.update state.cache.entry index .empty _).m68k ≠ _ at held
      rw [same, Function.update_self] at held
      exact held rfl
    change (Function.update state.cache.entry index .empty _).m68k ≠ _ at held
    rw [Function.update_of_ne away] at held
    have before := offeredNot held
    change offered (Function.update state.cache.alloc (index / ways) _ set) recentWay = false
    by_cases here : set = index / ways
    · subst here
      rw [Function.update_self, offered_raise (by omega) (by omega), before]
      have otherWay : recentWay ≠ index % ways := by
        rintro rfl
        apply away
        rw [Nat.mul_comm]
        exact Nat.div_add_mod index ways
      simp [otherWay]
    · rwa [Function.update_of_ne here]

theorem invalidateAddress_sound (configured : Configured ways sets)
    (sound : Sound ways sets units state) (address : UInt32) :
    Sound ways sets units (step ways sets (.invalidateAddress address) state) := by
  have told : ∀ key entryPoint,
      carried (.invalidatedAddress address :: state.events) key = some entryPoint ↔
        carried state.events key = some entryPoint ∧ key ≠ address := by
    intro key entryPoint
    rw [carried]
    split
    next same => simp [same]
    next other => simp [other]
  cases found : wayOf ways sets state.cache address with
  | none =>
      simp only [step, invalidateByM68kAddress, found]
      refine ⟨sound.offers, sound.placed, ?_, sound.recent⟩
      intro key entryPoint
      rw [told, sound.history]
      constructor
      · exact fun holds => holds.1
      · rintro ⟨proper, index, inside, entry⟩
        refine ⟨⟨proper, index, inside, entry⟩, ?_⟩
        rintro rfl
        have seen := sound.placed.wayOf configured inside (congrArg Entry.m68k entry) proper
        rw [found] at seen
        cases seen
  | some way =>
      obtain ⟨inside, tag⟩ := wayOf_eq_some found
      obtain ⟨bound, quotient, rest⟩ := index_lt (setOf_lt configured address) inside
      have released := release_sound configured sound bound (.invalidatedAddress address) (by
        rw [tag]
        exact told)
      rw [quotient, rest] at released
      simp only [step, invalidateByM68kAddress, found]
      exact released

theorem invalidateEntryPoint_sound (configured : Configured ways sets) (isUnits : Units units)
    (sound : Sound ways sets units state) (entryPoint : UInt64) :
    Sound ways sets units (step ways sets (.invalidateEntryPoint entryPoint) state) := by
  have told : ∀ key other,
      carried (.invalidatedEntryPoint entryPoint :: state.events) key = some other ↔
        carried state.events key = some other ∧ other ≠ entryPoint := by
    intro key other
    rw [carried]
    split
    next same =>
      rw [same]
      simp [eq_comm]
    next different =>
      constructor
      · intro held
        refine ⟨held, ?_⟩
        rintro rfl
        exact different held
      · exact fun held => held.1
  cases found : (List.range (sets * ways)).find? fun index =>
      decide ((state.cache.entry index).arm = entryPoint) with
  | none =>
      simp only [step, invalidateByARMAddress, found]
      refine ⟨sound.offers, sound.placed, ?_, sound.recent⟩
      intro key other
      rw [told, sound.history]
      constructor
      · exact fun holds => holds.1
      · rintro ⟨proper, index, inside, entry⟩
        refine ⟨⟨proper, index, inside, entry⟩, ?_⟩
        rintro rfl
        have missed := List.find?_range_eq_none.mp found index inside
        rw [entry] at missed
        simp at missed
  | some index =>
      obtain ⟨hit, member, -⟩ := List.find?_range_eq_some.mp found
      have arm : (state.cache.entry index).arm = entryPoint := of_decide_eq_true hit
      have inside := List.mem_range.mp member
      simp only [step, invalidateByARMAddress, found]
      apply release_sound configured sound inside
      intro key other
      rw [told]
      apply and_congr_right
      intro holds
      obtain ⟨proper, held, heldInside, entry⟩ := (sound.history key other).mp holds
      have unit := sound.placed.unit held heldInside (by rw [entry]; exact proper)
      rw [entry] at unit
      apply not_congr
      constructor
      · rintro rfl
        by_cases vacant : (state.cache.entry index).m68k = emptyTag
        · have null := sound.placed.vacant index inside vacant
          rw [arm] at null
          exact absurd null (isUnits.nonnull unit)
        · have other := sound.placed.unit index inside vacant
          rw [arm] at other
          exact isUnits.distinct unit other
      · intro same
        have here := sound.placed.once held heldInside index inside (by rw [entry]; exact proper)
          (by rw [entry]; exact same)
        rw [← arm, ← here, entry]

theorem insert_sound (configured : Configured ways sets) (isUnits : Units units)
    (sound : Sound ways sets units state) {address : UInt32} {entryPoint : UInt64}
    (allowed : Allowed ways sets units (.insert address entryPoint) state) :
    Sound ways sets units (step ways sets (.insert address entryPoint) state) := by
  obtain ⟨unit, even, missed⟩ := allowed
  have proper : address ≠ emptyTag := by
    rintro rfl
    revert even
    decide
  have absent := absent_of_findBlock sound.placed configured isUnits proper missed
  have set := setOf_lt configured address
  obtain ⟨inside, -⟩ := victim_lt configured sound.offers set
  obtain ⟨bound, quotient, -⟩ := index_lt set inside
  refine ⟨?_, ?_, ?_, ?_⟩
  · exact touch_offers configured inside sound.offers
  · exact sound.placed.insert absent quotient.symm unit proper
  · intro key other
    have told : carried (insertionEvents ways sets state.cache address entryPoint ++ state.events)
        key = some other ↔
        if key = address then other = entryPoint
        else carried state.events key = some other ∧
          key ≠ (state.cache.entry (setOf sets address * ways +
            victim state.cache (setOf sets address))).m68k := by
      rw [insertionEvents]
      by_cases here : key = address
      · split <;> simp [carried, here, eq_comm]
      · split
        next vacant =>
          simp only [List.cons_append, List.nil_append, carried, if_neg here, vacant]
          constructor
          · exact fun held => ⟨held, ((sound.history key other).mp held).1⟩
          · exact fun held => held.1
        next occupied =>
          simp only [List.cons_append, List.nil_append, carried, if_neg here]
          split
          next same => simp [same]
          next different => simp [different]
    change carried (insertionEvents ways sets state.cache address entryPoint ++ state.events)
        key = some other ↔ Holds ways sets (Function.update state.cache.entry _ _) key other
    rw [told]
    split
    next here =>
      subst here
      constructor
      · rintro rfl
        exact ⟨proper, _, bound, Function.update_self _ _ _⟩
      · rintro ⟨-, index, indexInside, entry⟩
        by_cases same : index = setOf sets key * ways + victim state.cache (setOf sets key)
        · rw [same, Function.update_self] at entry
          exact (congrArg Entry.arm entry).symm
        · rw [Function.update_of_ne same] at entry
          exact absurd (congrArg Entry.m68k entry) (absent index indexInside)
    next elsewhere =>
      rw [sound.history]
      constructor
      · rintro ⟨⟨keyProper, index, indexInside, entry⟩, other⟩
        refine ⟨keyProper, index, indexInside, ?_⟩
        have away : index ≠ setOf sets address * ways + victim state.cache (setOf sets address) := by
          rintro rfl
          exact other (congrArg Entry.m68k entry).symm
        rwa [Function.update_of_ne away]
      · rintro ⟨keyProper, index, indexInside, entry⟩
        have away : index ≠ setOf sets address * ways + victim state.cache (setOf sets address) := by
          rintro rfl
          rw [Function.update_self] at entry
          exact elsewhere (congrArg Entry.m68k entry).symm
        rw [Function.update_of_ne away] at entry
        refine ⟨⟨keyProper, index, indexInside, entry⟩, ?_⟩
        intro same
        apply away
        apply sound.placed.once index indexInside _ bound
        · rw [entry]
          exact keyProper
        · rw [entry]
          exact same
  · intro other otherInside way isRecent
    change Function.update state.recent (setOf sets address) _ other = _ at isRecent
    by_cases here : other = setOf sets address
    · subst here
      rw [Function.update_self] at isRecent
      cases isRecent
      exact ⟨inside, fun _ => (touch_alloc_self configured inside).2⟩
    · rw [Function.update_of_ne here] at isRecent
      obtain ⟨wayInside, hidden⟩ := sound.recent other otherInside way isRecent
      refine ⟨wayInside, fun held => ?_⟩
      have away : other * ways + way ≠
          setOf sets address * ways + victim state.cache (setOf sets address) := by
        intro same
        apply here
        rw [← (index_lt otherInside wayInside).2.1, same, quotient]
      change (Function.update state.cache.entry _ _ (other * ways + way)).m68k ≠ _ at held
      rw [Function.update_of_ne away] at held
      change offered ((touch ways _ _ _).alloc other) way = false
      rw [touch_alloc_of_ne here]
      exact hidden held

theorem step_sound (configured : Configured ways sets) (isUnits : Units units) {label : Label}
    (allowed : Allowed ways sets units label state) (sound : Sound ways sets units state) :
    Sound ways sets units (step ways sets label state) := by
  cases label with
  | find address => exact find_sound configured sound address
  | insert address entryPoint => exact insert_sound configured isUnits sound allowed
  | invalidateAddress address => exact invalidateAddress_sound configured sound address
  | invalidateEntryPoint entryPoint =>
      exact invalidateEntryPoint_sound configured isUnits sound entryPoint

/-- What the lookup cache promises. -/
structure Promises (ways sets : Nat) (state : State) : Prop where
  offers : ∀ set < sets, state.cache.alloc set >>> UInt32.ofNat (32 - ways) ≠ 0
  victim : ∀ set < sets, victim state.cache set < ways
  set : ∀ index < sets * ways, (state.cache.entry index).m68k ≠ emptyTag →
    setOf sets (state.cache.entry index).m68k = index / ways
  once : ∀ first < sets * ways, ∀ second < sets * ways,
    (state.cache.entry first).m68k ≠ emptyTag →
    (state.cache.entry first).m68k = (state.cache.entry second).m68k → first = second
  find : ∀ address entryPoint, entryPoint ≠ 0 →
    ((findBlock ways sets state.cache address).1 = entryPoint ↔
      carried state.events address = some entryPoint)
  recent : ∀ set < sets, ∀ way, state.recent set = some way →
    (state.cache.entry (set * ways + way)).m68k ≠ emptyTag → Lru.victim state.cache set ≠ way

/-- Over every sequence of operations that starts with `LRU_InvalidateAll`, the victim
lies in its set, addresses are unique and in place, a lookup returns what the history
says, and the way last hit or inserted is not the next victim unless the tag of empty
ways was looked up in between. -/
theorem lru_cache_sound (configured : Configured ways sets) (isUnits : Units units)
    {memory : Cache} {labels : List Label} {state : State}
    (run : (machine ways sets).Runs (Allowed ways sets units) (start ways sets memory) labels
      state) :
    Promises ways sets state := by
  have sound : Sound ways sets units state := by
    apply run.invariant (motive := Sound ways sets units)
    · intro label before after allowed stepped sound
      cases stepped
      exact step_sound configured isUnits allowed sound
    · exact start_sound configured memory
  refine ⟨?_, ?_, sound.placed.set, sound.placed.once, ?_, ?_⟩
  · intro set inside none
    obtain ⟨way, wayInside, shown⟩ := sound.offers set inside
    have hidden := (shift_eq_zero_iff configured.positive configured.word).mp none way wayInside
    rw [shown] at hidden
    cases hidden
  · exact fun set inside => (victim_lt configured sound.offers inside).1
  · intro address entryPoint proper
    rw [findBlock_eq_iff sound.placed configured proper, sound.history]
  · intro set inside way isRecent held same
    have shown := (victim_lt configured sound.offers inside).2
    rw [same, (sound.recent set inside way isRecent).2 held] at shown
    cases shown

/-- Units with their entry point one past their address. -/
def nextTo (address : UInt32) (entryPoint : UInt64) : Prop :=
  entryPoint.toNat = address.toNat + 1

instance (label : Label) (state : State) : Decidable (Allowed ways sets nextTo label state) :=
  match label with
  | .insert _ _ => inferInstanceAs (Decidable (_ = _ ∧ _ = _ ∧ _ = _))
  | .find _ | .invalidateAddress _ | .invalidateEntryPoint _ => inferInstanceAs (Decidable True)

theorem nextTo_units : Units nextTo where
  distinct := by
    intro first second entryPoint one other
    apply UInt32.toNat_inj.mp
    unfold nextTo at one other
    omega
  nonnull := by
    rintro address _ unit rfl
    unfold nextTo at unit
    simp at unit

/-- Memory before the cache is set up. -/
def untouched : Cache where
  entry _ := ⟨0, 0⟩
  alloc _ := 0

/-- Two blocks share a set, one is hit and the other invalidated. -/
theorem lru_cache_sound_of_hit :
    ∃ state, (machine 2 1).Runs (Allowed 2 1 nextTo) (start 2 1 untouched)
        [.find 0x1000, .insert 0x1000 0x1001, .find 0x2000, .insert 0x2000 0x2001, .find 0x1000,
          .invalidateAddress 0x2000] state ∧
      carried state.events 0x1000 = some 0x1001 ∧ victim state.cache 0 = 1 ∧
      Promises 2 1 state := by
  have executed : ((machine 2 1).run (Allowed 2 1 nextTo)
      [.find 0x1000, .insert 0x1000 0x1001, .find 0x2000, .insert 0x2000 0x2001, .find 0x1000,
        .invalidateAddress 0x2000] (start 2 1 untouched)).map
      (fun state => (carried state.events 0x1000, victim state.cache 0)) =
      some (some 0x1001, 1) := by
    decide
  obtain ⟨state, run, seen⟩ := Machine.runs_of_observed executed
  obtain ⟨held, next⟩ := Prod.mk.inj seen
  exact ⟨state, run, held, next, lru_cache_sound ⟨by decide, by decide, by decide⟩ nextTo_units run⟩

/-- An empty way answers to the address `0xffffffff`: looking it up returns null, but
refreshes the replacement word so that the block inserted last is the next victim. -/
theorem emptyTag_lookup_exposes_recent :
    ∃ before state, (machine 2 1).Runs (Allowed 2 1 nextTo) (start 2 1 untouched)
        [.find 0x1000, .insert 0x1000 0x1001] before ∧
      (machine 2 1).Runs (Allowed 2 1 nextTo) before [.find 0xffffffff] state ∧
      before.recent 0 = some 0 ∧ (findBlock 2 1 before.cache 0xffffffff).1 = 0 ∧
      state.cache.entry 0 = ⟨0x1000, 0x1001⟩ ∧ victim state.cache 0 = 0 := by
  have inserted : ((machine 2 1).run (Allowed 2 1 nextTo)
      [.find 0x1000, .insert 0x1000 0x1001] (start 2 1 untouched)).map
      (fun before => (before.recent 0, (findBlock 2 1 before.cache 0xffffffff).1,
        (findBlock 2 1 before.cache 0xffffffff).2.entry 0,
        victim (findBlock 2 1 before.cache 0xffffffff).2 0)) =
      some (some 0, 0, ⟨0x1000, 0x1001⟩, 0) := by
    decide
  obtain ⟨before, run, seen⟩ := Machine.runs_of_observed inserted
  obtain ⟨recent, rest⟩ := Prod.mk.inj seen
  obtain ⟨null, rest⟩ := Prod.mk.inj rest
  obtain ⟨kept, next⟩ := Prod.mk.inj rest
  exact ⟨before, step 2 1 (.find 0xffffffff) before, run, .step trivial rfl (.refl _), recent, null,
    kept, next⟩

end Paulastorm.Lru
