import Paulastorm.Lru

namespace Paulastorm.Lru

/-! What the lookup cache keeps over every run. -/

open Library

section Words

variable {word : UInt32} {way other ways : Nat}

/-- A way that the replacement word offers to insertions. -/
def offered (word : UInt32) (way : Nat) : Bool := word.toBitVec.getMsbD way

theorem offered_wayBit (small : way < 32) (otherSmall : other < 32) :
    offered (wayBit way) other = decide (other = way) := by
  have value : wayBit way = UInt32.ofBitVec (BitVec.twoPow 32 (31 - way)) := by
    clear otherSmall
    revert small
    revert way
    decide
  rw [offered, value, BitVec.getMsbD_eq_getLsbD, BitVec.getLsbD_twoPow, Bool.eq_iff_iff]
  simp only [Bool.and_eq_true, decide_eq_true_eq]
  omega

theorem offered_clear (small : way < 32) (otherSmall : other < 32) :
    offered (word &&& ~~~wayBit way) other = (offered word other && !decide (other = way)) := by
  rw [← offered_wayBit small otherSmall]
  simp [offered, otherSmall]

theorem offered_complement (small : way < 32) (otherSmall : other < 32) :
    offered (~~~wayBit way) other = !decide (other = way) := by
  rw [← offered_wayBit small otherSmall]
  simp [offered, otherSmall]

theorem offered_raise (small : way < 32) (otherSmall : other < 32) :
    offered (word ||| wayBit way) other = (offered word other || decide (other = way)) := by
  rw [← offered_wayBit small otherSmall]
  simp [offered]

theorem offered_iff (small : way < 32) : word &&& wayBit way ≠ 0 ↔ offered word way = true := by
  have same : ∀ index < 32, offered (word &&& wayBit way) index =
      (offered word way && decide (index = way)) := by
    intro index inside
    have both : offered (word &&& wayBit way) index =
        (offered word index && offered (wayBit way) index) := by simp [offered]
    rw [both, offered_wayBit small inside]
    by_cases here : index = way
    · rw [here]
    · simp [here]
  constructor
  · intro nonzero
    by_contra refused
    apply nonzero
    rw [← UInt32.toBitVec_inj]
    apply BitVec.eq_of_getMsbD_eq
    intro index inside
    have bit := same index inside
    rw [offered, Bool.eq_false_iff.mpr refused, Bool.false_and] at bit
    rw [bit]
    exact BitVec.getMsbD_zero.symm
  · intro shown zero
    have bit := same way small
    rw [zero, shown] at bit
    simp [offered] at bit

/-- The shift of the source sees the ways only. -/
theorem shift_eq_zero_iff (positive : 0 < ways) (small : ways ≤ 32) :
    word >>> UInt32.ofNat (32 - ways) = 0 ↔ ∀ way < ways, offered word way = false := by
  have amount : (UInt32.ofNat (32 - ways)).toNat % 32 = 32 - ways := by
    rw [UInt32.toNat_ofNat']
    omega
  rw [← UInt32.toNat_inj, UInt32.toNat_shiftRight, amount]
  constructor
  · intro zero way inside
    have bit := congrArg (Nat.testBit · (ways - 1 - way)) zero
    have place : 32 - ways + (ways - 1 - way) = 32 - 1 - way := by omega
    simp only [Nat.testBit_shiftRight, place] at bit
    rw [offered, BitVec.getMsbD_eq_getLsbD, BitVec.getLsbD]
    simp only [Bool.and_eq_false_iff]
    exact .inr (by simpa using bit)
  · intro clear
    apply Nat.eq_of_testBit_eq
    intro index
    rw [Nat.testBit_shiftRight]
    by_cases inside : index < ways
    · have bit := clear (ways - 1 - index) (by omega)
      have place : 32 - 1 - (ways - 1 - index) = 32 - ways + index := by omega
      rw [offered, BitVec.getMsbD_eq_getLsbD, place] at bit
      simpa [BitVec.getLsbD, show ways - 1 - index < 32 by omega] using bit
    · have bounded := word.toNat_lt
      rw [Nat.testBit_lt_two_pow (bounded.trans_le (Nat.pow_le_pow_right (by decide) (by omega)))]
      simp

/-- The count of leading zeros is the first way offered. -/
theorem clz_offered (small : ways ≤ 32) (some : ∃ way < ways, offered word way = true) :
    clz word < ways ∧ offered word (clz word) = true := by
  obtain ⟨way, inside, shown⟩ := some
  rw [clz]
  cases found : (List.range 32).find? fun index => decide (word &&& wayBit index ≠ 0) with
  | none =>
      have refused := List.find?_range_eq_none.mp found way (by omega)
      simp only [Bool.not_eq_true', decide_eq_false_iff_not] at refused
      exact absurd ((offered_iff (by omega)).mpr shown) refused
  | some first =>
      obtain ⟨hit, bound, before⟩ := List.find?_range_eq_some.mp found
      simp only [decide_eq_true_eq, List.mem_range, Bool.not_eq_true',
        decide_eq_false_iff_not] at hit bound before
      refine ⟨?_, (offered_iff bound).mp hit⟩
      change first < ways
      by_contra late
      exact before way (by omega) ((offered_iff (by omega)).mpr shown)

end Words

section Cache

variable {ways sets : Nat} {cache : Cache} {address : UInt32}

/-- The configuration that `config.h` may choose. -/
structure Configured (ways sets : Nat) : Prop where
  two : 2 ≤ ways
  word : ways ≤ 32
  sets : 0 < sets

theorem wayOf_eq_some {way : Nat} (found : wayOf ways sets cache address = some way) :
    way < ways ∧ (cache.entry (setOf sets address * ways + way)).m68k = address := by
  obtain ⟨hit, inside, -⟩ := List.find?_range_eq_some.mp found
  exact ⟨List.mem_range.mp inside, of_decide_eq_true hit⟩

theorem wayOf_eq_none (missed : wayOf ways sets cache address = none) :
    ∀ way < ways, (cache.entry (setOf sets address * ways + way)).m68k ≠ address := by
  intro way inside
  have refused := List.find?_range_eq_none.mp missed way inside
  simpa using refused

theorem setOf_lt (configured : Configured ways sets) (address : UInt32) :
    setOf sets address < sets :=
  Nat.mod_lt _ configured.sets

theorem Configured.positive (configured : Configured ways sets) : 0 < ways :=
  Nat.lt_of_lt_of_le (by decide) configured.two

/-- The index of a way of a set. -/
theorem index_lt {set way : Nat} (setInside : set < sets) (inside : way < ways) :
    set * ways + way < sets * ways ∧ (set * ways + way) / ways = set ∧
      (set * ways + way) % ways = way := by
  have positive : 0 < ways := Nat.zero_lt_of_lt inside
  refine ⟨?_, ?_, ?_⟩
  · calc set * ways + way
        < set * ways + ways := Nat.add_lt_add_left inside _
      _ = (set + 1) * ways := (Nat.succ_mul _ _).symm
      _ ≤ sets * ways := Nat.mul_le_mul_right _ setInside
  · rw [Nat.mul_comm, Nat.mul_add_div positive, Nat.div_eq_of_lt inside, Nat.add_zero]
  · rw [Nat.mul_comm, Nat.mul_add_mod, Nat.mod_eq_of_lt inside]

/-- Some way of every set is offered, so that the victim lies inside the set. -/
def Offers (ways sets : Nat) (cache : Cache) : Prop :=
  ∀ set < sets, ∃ way < ways, offered (cache.alloc set) way = true

theorem touch_alloc_self {set way : Nat} (configured : Configured ways sets) (inside : way < ways) :
    (∃ other < ways, offered ((touch ways cache set way).alloc set) other = true) ∧
      offered ((touch ways cache set way).alloc set) way = false := by
  have small := configured.word
  have positive := configured.positive
  simp only [touch, Function.update_self]
  split
  next =>
    refine ⟨?_, ?_⟩
    · refine ⟨if way = 0 then 1 else 0, ?_, ?_⟩
      · have two := configured.two
        split <;> omega
      · rw [offered_complement (by omega) (by split <;> omega)]
        split <;> simp <;> omega
    · rw [offered_complement (by omega) (by omega)]
      simp
  next shown =>
    refine ⟨?_, ?_⟩
    · rw [shift_eq_zero_iff positive small] at shown
      by_contra none
      apply shown
      intro other otherInside
      exact Bool.eq_false_iff.mpr fun hit => none ⟨other, otherInside, hit⟩
    · rw [offered_clear (by omega) (by omega)]
      simp

theorem touch_alloc_of_ne {set other way : Nat} (different : other ≠ set) :
    (touch ways cache set way).alloc other = cache.alloc other := by
  simp only [touch, Function.update_of_ne different]

theorem touch_offers {set way : Nat} (configured : Configured ways sets) (inside : way < ways)
    (offers : Offers ways sets cache) : Offers ways sets (touch ways cache set way) := by
  intro other otherInside
  by_cases here : other = set
  · rw [here]
    exact (touch_alloc_self configured inside).1
  · rw [touch_alloc_of_ne here]
    exact offers other otherInside

theorem release_offers {index set way : Nat} (configured : Configured ways sets)
    (inside : way < ways) (offers : Offers ways sets cache) :
    Offers ways sets (release cache index set way) := by
  have small := configured.word
  intro other otherInside
  obtain ⟨free, freeInside, shown⟩ := offers other otherInside
  refine ⟨free, freeInside, ?_⟩
  by_cases here : other = set
  · subst here
    change offered (Function.update cache.alloc other _ other) free = true
    rw [Function.update_self, offered_raise (by omega) (by omega), shown, Bool.true_or]
  · change offered (Function.update cache.alloc set _ other) free = true
    rwa [Function.update_of_ne here]

theorem victim_lt {set : Nat} (configured : Configured ways sets) (offers : Offers ways sets cache)
    (inside : set < sets) : victim cache set < ways ∧
      offered (cache.alloc set) (victim cache set) = true :=
  clz_offered configured.word (offers set inside)

end Cache

/-- Translation units: an entry point belongs to one address and is not null. -/
structure Units (units : UInt32 → UInt64 → Prop) : Prop where
  distinct : ∀ {first second entryPoint}, units first entryPoint → units second entryPoint →
    first = second
  nonnull : ∀ {address entryPoint}, units address entryPoint → entryPoint ≠ 0

/-- Every entry that holds something is a unit in the set of its address, and no address
is held twice. -/
structure Placed (ways sets : Nat) (units : UInt32 → UInt64 → Prop)
    (entry : Nat → Entry) : Prop where
  set : ∀ index < sets * ways, (entry index).m68k ≠ emptyTag →
    setOf sets (entry index).m68k = index / ways
  unit : ∀ index < sets * ways, (entry index).m68k ≠ emptyTag →
    units (entry index).m68k (entry index).arm
  vacant : ∀ index < sets * ways, (entry index).m68k = emptyTag → (entry index).arm = 0
  once : ∀ first < sets * ways, ∀ second < sets * ways, (entry first).m68k ≠ emptyTag →
    (entry first).m68k = (entry second).m68k → first = second

/-- The cache holds this translation. -/
def Holds (ways sets : Nat) (entry : Nat → Entry) (address : UInt32) (entryPoint : UInt64) :
    Prop :=
  address ≠ emptyTag ∧ ∃ index < sets * ways, entry index = ⟨address, entryPoint⟩

section Entries

variable {ways sets : Nat} {units : UInt32 → UInt64 → Prop} {cache : Cache} {address : UInt32}
  {entryPoint : UInt64}

/-- A held address is found at the way where it stands. -/
theorem Placed.wayOf (placed : Placed ways sets units cache.entry) (configured : Configured ways sets)
    {index : Nat} (inside : index < sets * ways) (held : (cache.entry index).m68k = address)
    (proper : address ≠ emptyTag) :
    Lru.wayOf ways sets cache address = some (index % ways) := by
  have positive := configured.positive
  have set := placed.set index inside (held ▸ proper)
  rw [held] at set
  have place : setOf sets address * ways + index % ways = index := by
    rw [set, Nat.mul_comm]
    exact Nat.div_add_mod index ways
  cases found : Lru.wayOf ways sets cache address with
  | none =>
      have missed := wayOf_eq_none found (index % ways) (Nat.mod_lt _ positive)
      rw [place] at missed
      exact absurd held missed
  | some way =>
      obtain ⟨wayInside, seen⟩ := wayOf_eq_some found
      obtain ⟨bound, -, rest⟩ := index_lt (setOf_lt configured address) wayInside
      have same := placed.once index inside _ bound (held ▸ proper) (held.trans seen.symm)
      rw [same, rest]

theorem findBlock_eq_iff (placed : Placed ways sets units cache.entry)
    (configured : Configured ways sets) (proper : entryPoint ≠ 0) :
    (findBlock ways sets cache address).1 = entryPoint ↔
      Holds ways sets cache.entry address entryPoint := by
  constructor
  · intro found
    unfold findBlock at found
    cases seen : Lru.wayOf ways sets cache address with
    | none =>
        simp only [seen] at found
        exact absurd found.symm proper
    | some way =>
        simp only [seen] at found
        obtain ⟨inside, tag⟩ := wayOf_eq_some seen
        obtain ⟨bound, -, -⟩ := index_lt (setOf_lt configured address) inside
        refine ⟨?_, _, bound, ?_⟩
        · intro empty
          exact proper (found.symm.trans (placed.vacant _ bound (tag.trans empty)))
        · exact congrArg₂ Entry.mk tag found
  · rintro ⟨held, index, inside, entry⟩
    have positive := configured.positive
    have tag : (cache.entry index).m68k = address := by rw [entry]
    have set := placed.set index inside (tag ▸ held)
    rw [tag] at set
    have place : setOf sets address * ways + index % ways = index := by
      rw [set, Nat.mul_comm]
      exact Nat.div_add_mod index ways
    simp only [findBlock, placed.wayOf configured inside tag held, place, entry]

/-- A lookup in vain of a proper address: no entry shows it. -/
theorem absent_of_findBlock (placed : Placed ways sets units cache.entry)
    (configured : Configured ways sets) (isUnits : Units units) (proper : address ≠ emptyTag)
    (missed : (findBlock ways sets cache address).1 = 0) :
    ∀ index < sets * ways, (cache.entry index).m68k ≠ address := by
  intro index inside held
  have unit := placed.unit index inside (held ▸ proper)
  have holds : Holds ways sets cache.entry address (cache.entry index).arm :=
    ⟨proper, index, inside, by rw [← held]⟩
  rw [← findBlock_eq_iff placed configured (isUnits.nonnull unit), missed] at holds
  exact isUnits.nonnull unit holds.symm

theorem Placed.empty {entry : Nat → Entry} {index : Nat} (placed : Placed ways sets units entry) :
    Placed ways sets units (Function.update entry index .empty) := by
  have away : ∀ other, (Function.update entry index .empty other).m68k ≠ emptyTag →
      Function.update entry index .empty other = entry other := by
    intro other proper
    apply Function.update_of_ne
    rintro rfl
    rw [Function.update_self] at proper
    exact proper rfl
  refine ⟨?_, ?_, ?_, ?_⟩
  · intro other inside proper
    have same := away other proper
    simp only [same] at proper ⊢
    exact placed.set other inside proper
  · intro other inside proper
    have same := away other proper
    simp only [same] at proper ⊢
    exact placed.unit other inside proper
  · intro other inside vacant
    by_cases here : other = index
    · rw [here, Function.update_self]
      rfl
    · simp only [Function.update_of_ne here] at vacant ⊢
      exact placed.vacant other inside vacant
  · intro first firstInside second secondInside proper same
    have firstAway := away first proper
    have secondAway := away second (same ▸ proper)
    simp only [firstAway, secondAway] at proper same
    exact placed.once first firstInside second secondInside proper same

theorem Placed.insert {entry : Nat → Entry} {index : Nat} (placed : Placed ways sets units entry)
    (absent : ∀ other < sets * ways, (entry other).m68k ≠ address)
    (set : setOf sets address = index / ways) (unit : units address entryPoint)
    (proper : address ≠ emptyTag) :
    Placed ways sets units
      (Function.update entry index ⟨address, entryPoint⟩) := by
  refine ⟨?_, ?_, ?_, ?_⟩
  · intro other inside held
    by_cases here : other = index
    · rw [here, Function.update_self]
      exact set
    · simp only [Function.update_of_ne here] at held ⊢
      exact placed.set other inside held
  · intro other inside held
    by_cases here : other = index
    · rw [here, Function.update_self]
      exact unit
    · simp only [Function.update_of_ne here] at held ⊢
      exact placed.unit other inside held
  · intro other inside vacant
    by_cases here : other = index
    · rw [here, Function.update_self] at vacant
      exact absurd vacant proper
    · simp only [Function.update_of_ne here] at vacant ⊢
      exact placed.vacant other inside vacant
  · intro first firstInside second secondInside held same
    by_cases firstHere : first = index
    · by_cases secondHere : second = index
      · rw [firstHere, secondHere]
      · rw [firstHere, Function.update_self, Function.update_of_ne secondHere] at same
        exact absurd same.symm (absent second secondInside)
    · by_cases secondHere : second = index
      · rw [secondHere, Function.update_self, Function.update_of_ne firstHere] at same
        exact absurd same (absent first firstInside)
      · simp only [Function.update_of_ne firstHere, Function.update_of_ne secondHere] at held same
        exact placed.once first firstInside second secondInside held same

end Entries

end Paulastorm.Lru
