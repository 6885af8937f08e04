import Paulastorm.Core.Blocks.Played
import Paulastorm.Live.Host
import Paulastorm.Live.Settings
import Paulastorm.Mirror.PageCache.Service

namespace Paulastorm.Live

/-! The lookahead covers the playhead: with the pages of one sweep at hand, the next 512
words of a channel come without a miss. -/

open Paulastorm.Core Library Mirror Probe
open Paulastorm.Core.Blocks (SameCursor)

section Pages

/-- The pages that one prefetch call asks for. -/
def windowPages (window : UInt32 × UInt32) : List Nat :=
  if window.1 ≥ chipLimit ∨ window.2 = 0 then [] else Cache.pageRange window.1 window.2

variable {F D : Type}

/-- The pages that `paula_live_prefetch` asks for. -/
def requestedPages (core : Paula F D) : List Nat :=
  ((List.finRange 4).flatMap fun ch => windows (core.fetchState ch)).flatMap windowPages

/-- `paula_live_prefetch` requests these pages, one by one. -/
theorem prefetch_requests (chip : Nat → UInt8) (core : Paula F D) (cache : Cache) :
    prefetch (livePort chip) core ⟨cache, []⟩ =
      ⟨(requestedPages core).foldl Cache.prefetchPage cache, []⟩ := by
  have call : ∀ (window : UInt32 × UInt32) (cache : Cache),
      (livePort chip).prefetch window.1 window.2 ⟨cache, []⟩ =
        ⟨(windowPages window).foldl Cache.prefetchPage cache, []⟩ := by
    intro window cache
    simp only [livePort, Host.turn, Cache.prefetch, windowPages]
    split <;> rfl
  rw [prefetch_eq, requestedPages]
  generalize (List.finRange 4).flatMap (fun ch => windows (core.fetchState ch)) = asked
  induction asked generalizing cache with
  | nil => rfl
  | cons window rest ih =>
      rw [List.foldl_cons, call, ih, List.flatMap_cons, List.foldl_append]

theorem pageOf_mem_pageRange {start length address : UInt32} (below : address < chipLimit)
    (after : start.toNat ≤ address.toNat) (inside : address.toNat < start.toNat + length.toNat) :
    pageOf address ∈ Cache.pageRange start length := by
  have limit : address.toNat < 2097152 := UInt32.lt_iff_toNat_lt.mp below
  have room : (chipLimit - start).toNat = 2097152 - start.toNat :=
    UInt32.toNat_sub_of_le _ _ (UInt32.le_iff_toNat_le.mpr (show start.toNat ≤ 2097152 by omega))
  have clipped : (if length > chipLimit - start then chipLimit - start else length).toNat =
      min length.toNat (2097152 - start.toNat) := by
    split
    next more =>
      have less := UInt32.lt_iff_toNat_lt.mp more
      rw [room] at less ⊢
      omega
    next fits =>
      have least := UInt32.le_iff_toNat_le.mp (UInt32.not_lt.mp fits)
      rw [room] at least
      omega
  simp only [Cache.pageRange, List.mem_range'_1, pageOf_eq]
  generalize (if length > chipLimit - start then chipLimit - start else length) = span at clipped ⊢
  have last : (start + span - 1).toNat = start.toNat + span.toNat - 1 := by
    have sum : (start + span).toNat = start.toNat + span.toNat := by
      rw [UInt32.toNat_add, Nat.mod_eq_of_lt (by omega)]
    rw [UInt32.toNat_sub_of_le, sum]
    · rfl
    · rw [UInt32.le_iff_toNat_le, sum]
      change 1 ≤ _
      omega
  rw [last]
  have upper : address.toNat / 256 ≤ (start.toNat + span.toNat - 1) / 256 :=
    Nat.div_le_div_right (by omega)
  have lower : start.toNat / 256 ≤ address.toNat / 256 := Nat.div_le_div_right after
  omega

/-- The pages of a window cover its bytes, up to the limit of Chip RAM. -/
theorem pageOf_mem_windowPages {window : UInt32 × UInt32} {address : UInt32}
    (below : address < chipLimit) (after : window.1.toNat ≤ address.toNat)
    (inside : address.toNat < window.1.toNat + window.2.toNat) :
    pageOf address ∈ windowPages window := by
  have start : ¬ (window.1 ≥ chipLimit ∨ window.2 = 0) := by
    rintro (beyond | none)
    · have lower := UInt32.le_iff_toNat_le.mp beyond
      have upper := UInt32.lt_iff_toNat_lt.mp below
      omega
    · rw [none] at inside
      change _ < _ + 0 at inside
      omega
  rw [windowPages, if_neg start]
  exact pageOf_mem_pageRange below after inside

end Pages

section Window

/-- The byte lengths of the two windows of a channel. -/
theorem windowBytes_toNat (words : UInt32) :
    (if words > 512 then 1024 else words * 2 : UInt32).toNat = 2 * min words.toNat 512 := by
  split
  next more =>
    have less : 512 < words.toNat := UInt32.lt_iff_toNat_lt.mp more
    change 1024 = _
    omega
  next few =>
    have most : words.toNat ≤ 512 := UInt32.le_iff_toNat_le.mp (UInt32.not_lt.mp few)
    rw [UInt32.toNat_mul]
    change words.toNat * 2 % 2 ^ 32 = _
    omega

variable {f : Paula.FetchState} (enabled : f.enabled = true)
include enabled

/-- The current block is asked for from the cursor on. -/
theorem current_window (words : f.wordsLeft ≠ 0) : ∃ window ∈ windows f,
    window.1 = f.cursor ∧ window.2.toNat = 2 * min f.wordsLeft.toNat 512 := by
  have bytes := windowBytes_toNat f.wordsLeft
  have positive : 0 < f.wordsLeft.toNat := UInt32.lt_iff_toNat_lt.mp (UInt32.pos_iff_ne_zero.mpr words)
  have some : (if f.wordsLeft > 512 then 1024 else f.wordsLeft * 2 : UInt32) ≠ 0 := by
    intro none
    rw [none] at bytes
    change 0 = _ at bytes
    omega
  refine ⟨(f.cursor, _), ?_, rfl, bytes⟩
  simp only [windows, enabled, Bool.not_true, Bool.false_eq_true, if_false, if_pos some]
  exact List.mem_append_left _ List.mem_cons_self

/-- The loop is asked for where the current block is shorter than the sweep. -/
theorem loop_window (short : f.wordsLeft.toNat < 512) (programmed : f.loopWords ≠ 0) :
    ∃ window ∈ windows f, window.1 = f.loop ∧
      window.2.toNat = 2 * min f.loopWords.toNat (512 - f.wordsLeft.toNat) := by
  have bytes := windowBytes_toNat f.wordsLeft
  have loopbytes := windowBytes_toNat f.loopWords
  simp only [windows, enabled, Bool.not_true, Bool.false_eq_true, if_false]
  generalize (if f.wordsLeft > 512 then 1024 else f.wordsLeft * 2 : UInt32) = current at bytes ⊢
  generalize (if f.loopWords > 512 then 1024 else f.loopWords * 2 : UInt32) = next at loopbytes ⊢
  have below : current < 1024 := by
    rw [UInt32.lt_iff_toNat_lt, bytes]
    change _ < 1024
    omega
  have rest : (1024 - current).toNat = 1024 - current.toNat :=
    UInt32.toNat_sub_of_le _ _ (UInt32.le_of_lt below)
  refine ⟨(f.loop, if 1024 - current > next then next else 1024 - current),
    List.mem_append_right _ ?_, rfl, ?_⟩
  · rw [if_pos ⟨below, programmed⟩]
    exact List.mem_cons_self
  · split
    next more =>
      have less := UInt32.lt_iff_toNat_lt.mp more
      rw [rest] at less
      change next.toNat = _
      omega
    next fits =>
      have least := UInt32.le_iff_toNat_le.mp (UInt32.not_lt.mp fits)
      rw [rest] at least
      change (1024 - current).toNat = _
      omega

end Window

section Playhead

variable {F D : Type}

/-- The word that a channel fetches next and the words left with it: those of the latched
block when the current one is exhausted. -/
def due (c : Channel F D) : UInt32 × UInt32 :=
  if c.curWordsLeft = 0 then (c.locPtrLatched, c.lenWordsLatched)
  else (c.curPtr, c.curWordsLeft)

/-- Where the playhead is after `words` words, seen from the lookahead's sweep: in what was
then the current block, or somewhere in the loop. -/
inductive Place (f : Paula.FetchState) (words : Nat) (due : UInt32 × UInt32) : Prop
  | current (address : due.1.toNat = f.cursor.toNat + 2 * words)
      (left : due.2.toNat + words = f.wordsLeft.toNat)
  | loop (played : Nat) (address : due.1.toNat = f.loop.toNat + 2 * played)
      (left : due.2.toNat + played = f.loopWords.toNat)
      (after : f.wordsLeft.toNat + played ≤ words)

/-- A channel on its way through the sweep. -/
structure Ahead (f : Paula.FetchState) (words : Nat) (c : Channel F D) : Prop where
  loop : c.locPtrLatched = f.loop
  loopWords : c.lenWordsLatched = f.loopWords
  place : Place f words (due c)

/-- The blocks of the sweep are programmed and do not wrap. -/
structure Straight (f : Paula.FetchState) : Prop where
  enabled : f.enabled = true
  programmed : f.loopWords ≠ 0
  current : f.cursor.toNat + 2 * f.wordsLeft.toNat ≤ 2 ^ 32
  next : f.loop.toNat + 2 * f.loopWords.toNat ≤ 2 ^ 32

variable {f : Paula.FetchState} {words : Nat} {c d : Channel F D}

theorem Ahead.due_words (ahead : Ahead f words c) (straight : Straight f) :
    0 < (due c).2.toNat := by
  have positive : ∀ {word : UInt32}, word ≠ 0 → 0 < word.toNat := fun some =>
    UInt32.lt_iff_toNat_lt.mp (UInt32.pos_iff_ne_zero.mpr some)
  unfold due
  split
  · rw [ahead.loopWords]
    exact positive straight.programmed
  next left => exact positive left

/-- What a channel is due does not depend on the byte it is at. -/
theorem Ahead.of_same (ahead : Ahead f words c) (loc : d.locPtrLatched = c.locPtrLatched)
    (len : d.lenWordsLatched = c.lenWordsLatched) (ptr : d.curPtr = c.curPtr)
    (left : d.curWordsLeft = c.curWordsLeft) : Ahead f words d := by
  have place : due d = due c := by
    simp only [due, left, ptr, loc, len]
  exact ⟨loc.trans ahead.loop, len.trans ahead.loopWords, place ▸ ahead.place⟩

/-- Both bytes of the word that is due are in the sweep. -/
theorem Ahead.covered (ahead : Ahead f words c) (straight : Straight f) (within : words < 512)
    {address : UInt32} (below : address < chipLimit)
    (first : (due c).1.toNat ≤ address.toNat) (second : address.toNat ≤ (due c).1.toNat + 1) :
    ∃ window ∈ windows f, pageOf address ∈ windowPages window := by
  have positive := ahead.due_words straight
  cases ahead.place with
  | current place left =>
      have some : f.wordsLeft ≠ 0 := by
        intro none
        rw [none] at left
        change _ = 0 at left
        omega
      obtain ⟨window, asked, start, length⟩ := current_window straight.enabled some
      exact ⟨window, asked, pageOf_mem_windowPages below (by rw [start]; omega)
        (by rw [start, length]; omega)⟩
  | loop played place left after =>
      obtain ⟨window, asked, start, length⟩ := loop_window straight.enabled
        (show f.wordsLeft.toNat < 512 by omega) straight.programmed
      exact ⟨window, asked, pageOf_mem_windowPages below (by rw [start]; omega)
        (by rw [start, length]; omega)⟩

/-- The second byte of the word that is due does not wrap. -/
theorem Ahead.second_toNat (ahead : Ahead f words c) (straight : Straight f) :
    ((due c).1 + 1).toNat = (due c).1.toNat + 1 := by
  have positive := ahead.due_words straight
  have current := straight.current
  have next := straight.next
  rw [UInt32.toNat_add]
  change ((due c).1.toNat + 1) % 2 ^ 32 = _
  cases ahead.place with
  | current place left => omega
  | loop played place left after => omega

/-- Fetching the word that is due. -/
theorem Ahead.fetch (ahead : Ahead f words c) (straight : Straight f)
    (loc : d.locPtrLatched = c.locPtrLatched) (len : d.lenWordsLatched = c.lenWordsLatched)
    (ptr : d.curPtr = (due c).1 + 2) (left : d.curWordsLeft = (due c).2 - 1) :
    Ahead f (words + 1) d := by
  have positive := ahead.due_words straight
  have current := straight.current
  have next := straight.next
  have fewer : d.curWordsLeft.toNat = (due c).2.toNat - 1 := by
    have one : (1 : UInt32) ≤ (due c).2 := UInt32.le_iff_toNat_le.mpr positive
    rw [left, UInt32.toNat_sub_of_le _ _ one]
    rfl
  have further : d.curPtr.toNat = ((due c).1.toNat + 2) % 2 ^ 32 := by
    rw [ptr, UInt32.toNat_add]
    rfl
  refine ⟨loc.trans ahead.loop, len.trans ahead.loopWords, ?_⟩
  by_cases exhausted : d.curWordsLeft = 0
  · have none : d.curWordsLeft.toNat = 0 := congrArg UInt32.toNat exhausted
    simp only [due, if_pos exhausted, loc, len, ahead.loop, ahead.loopWords]
    cases ahead.place with
    | current place left => exact .loop 0 rfl rfl (by omega)
    | loop played place left after => exact .loop 0 rfl rfl (by omega)
  · have some : 0 < d.curWordsLeft.toNat :=
      UInt32.lt_iff_toNat_lt.mp (UInt32.pos_iff_ne_zero.mpr exhausted)
    simp only [due, if_neg exhausted]
    cases ahead.place with
    | current place left =>
        exact .current (by change d.curPtr.toNat = _; omega) (by change d.curWordsLeft.toNat + _ = _; omega)
    | loop played place left after =>
        exact .loop (played + 1) (by change d.curPtr.toNat = _; omega)
          (by change d.curWordsLeft.toNat + _ = _; omega) (by omega)

/-- The sweep starts at the playhead. -/
theorem ahead_fetchState (p : Paula F D) {ch : Fin 4}
    (running : (p.channels ch).dmaWantsRestart = false) :
    Ahead (p.fetchState ch) 0 (p.channels ch) := by
  refine ⟨rfl, rfl, ?_⟩
  simp only [due, Paula.fetchState, running, Bool.false_or, Bool.and_eq_true, beq_iff_eq]
  by_cases exhausted : (p.channels ch).curWordsLeft = 0
  · rw [if_pos exhausted]
    by_cases boundary : (p.channels ch).onLowByte = true
    · rw [if_pos ⟨boundary, exhausted⟩, if_pos ⟨boundary, exhausted⟩]
      exact .current rfl rfl
    · rw [if_neg fun both => boundary both.1, if_neg fun both => boundary both.1, exhausted]
      exact .loop 0 rfl rfl le_rfl
  · rw [if_neg exhausted, if_neg fun both => exhausted both.2, if_neg fun both => exhausted both.2]
    exact .current rfl rfl

/-- A source sample that fetches a word fetches the one that is due. -/
theorem advance_due {σ : Type} (callbacks : Callbacks σ) (p : Paula F D) {ch : Fin 4}
    (read : p.read = true) (enabled : dmaOn p.dmaCon ch = true)
    (boundary : (p.channels ch).onLowByte = true) (host : σ) :
    let after := p.advanceOneSourceSample callbacks ch host
    (∃ host', (host' = host ∨ host' = callbacks.interrupt (Paula.intBit ch) host) ∧
      after.2 = (callbacks.read ((due (p.channels ch)).1 + 1)
        (callbacks.read (due (p.channels ch)).1 host').2).2) ∧
      (after.1.channels ch).locPtrLatched = (p.channels ch).locPtrLatched ∧
      (after.1.channels ch).lenWordsLatched = (p.channels ch).lenWordsLatched ∧
      (after.1.channels ch).curPtr = (due (p.channels ch)).1 + 2 ∧
      (after.1.channels ch).curWordsLeft =
        if 0 < (due (p.channels ch)).2 then (due (p.channels ch)).2 - 1
        else (due (p.channels ch)).2 := by
  intro after
  have stepped : after = Paula.fetchWord callbacks (p.reload callbacks ch host).1 ch
      (p.reload callbacks ch host).2 := by
    simp only [after, Paula.advanceOneSourceSample, read, enabled, boundary]
    rfl
  rw [stepped]
  by_cases exhausted : (p.channels ch).curWordsLeft = 0
  · have reloaded : (p.reload callbacks ch host).1.channels ch = (p.channels ch).reloaded := by
      simp only [Paula.reload, if_pos exhausted]
      exact Paula.updateChannel_self _ _ _
    have place : due (p.channels ch) =
        (((p.reload callbacks ch host).1.channels ch).curPtr,
          ((p.reload callbacks ch host).1.channels ch).curWordsLeft) := by
      rw [due, if_pos exhausted, reloaded]
      rfl
    refine ⟨⟨(p.reload callbacks ch host).2, ?_, ?_⟩, ?_⟩
    · simp only [Paula.reload, if_pos exhausted]
      split
      · exact .inr rfl
      · exact .inl rfl
    · rw [place]
      rfl
    · rw [place]
      simp only [Paula.fetchWord, Paula.updateChannel_self, Channel.loadWord, reloaded]
      exact ⟨rfl, rfl, trivial, trivial⟩
  · have kept : p.reload callbacks ch host = (p, host) := by
      simp only [Paula.reload, if_neg exhausted]
    rw [kept, due, if_neg exhausted]
    refine ⟨⟨host, .inl rfl, rfl⟩, ?_⟩
    simp only [Paula.fetchWord, Paula.updateChannel_self, Channel.loadWord]
    exact ⟨trivial, trivial, trivial, trivial⟩

end Playhead

section Stays

variable {chip : Nat → UInt8} {pages : List Nat}

/-- The pages are ready, and nothing that CPU0 does takes one of them away. -/
structure Stays (pages : List Nat) (host : Host chip) : Prop where
  ready : ∀ page ∈ pages, host.cache.tagOf page = ready
  upcoming : ∀ interference ∈ host.upcoming, ∀ cache : Cache,
    (∀ page ∈ pages, cache.tagOf page = Mirror.ready) →
      ∀ page ∈ pages, (interference.act cache).tagOf page = Mirror.ready

theorem Stays.turn {host : Host chip} (stays : Stays pages host) : Stays pages host.turn := by
  obtain ⟨ready, upcoming⟩ := stays
  unfold Host.turn
  split
  · exact ⟨ready, upcoming⟩
  next interference rest next =>
    rw [next] at upcoming
    exact ⟨upcoming interference List.mem_cons_self _ ready,
      fun other member => upcoming other (List.mem_cons_of_mem _ member)⟩

theorem Stays.readByte {host : Host chip} (stays : Stays pages host) (address : UInt32) :
    Stays pages ((livePort chip).readByte address host).2 where
  ready page asked :=
    ((readByte_requested host.turn.cache address).ready page).mpr (stays.turn.ready page asked)
  upcoming := stays.turn.upcoming

/-- A read within the pages does not miss. -/
theorem Stays.readByte_quiet {host : Host chip} (stays : Stays pages host) {address : UInt32}
    (covered : address < chipLimit → pageOf address ∈ pages) :
    ((livePort chip).readByte address host).2.cache.renderMiss = host.cache.renderMiss := by
  rw [← host.turn_renderMiss]
  by_cases below : address < chipLimit
  · exact (readByte_ready below (stays.turn.ready _ (covered below))).2
  · exact congrArg (fun read : UInt8 × Cache => read.2.renderMiss) (readByte_beyond below)

theorem Stays.interrupt {state : Speculation (Host chip)} (stays : Stays pages state.host)
    (bits : UInt16) :
    Stays pages ((callbacks (livePort chip)).interrupt bits state).host ∧
      ((callbacks (livePort chip)).interrupt bits state).host.cache.renderMiss =
        state.host.cache.renderMiss := by
  simp only [callbacks]
  split
  · exact ⟨stays, rfl⟩
  · exact ⟨⟨stays.ready, stays.upcoming⟩, rfl⟩

end Stays

section Machine

variable {F D : Type} [Floating F] [Floating D] [Arith F D]

/-- A core that the firmware can be in. -/
inductive Reachable : Paula F D → Prop
  | init {σ : Type} (port : Port σ) (host : σ) : Reachable (init port host).1.core
  | reset {core : Paula F D} (reachable : Reachable core) : Reachable core.reset
  | write {core : Paula F D} (reachable : Reachable core) (addr : UInt32) (value : UInt16) :
      Reachable (core.writeRegister16 addr value)
  | adopt {core : Paula F D} (reachable : Reachable core) (word : UInt32) :
      Reachable (adoptCore word core)
  | render {core : Paula F D} (reachable : Reachable core) {σ : Type} (callbacks : Callbacks σ)
      (host : σ) : Reachable (core.render callbacks host).1.2

theorem Reachable.sound {core : Paula F D} (reachable : Reachable core) :
    core.read = true ∧ core.RestartsMatch := by
  induction reachable with
  | init port host =>
      refine ⟨rfl, fun ch => ?_⟩
      change true = !dmaOn 0 ch
      rw [dmaOn_zero]
      rfl
  | reset reachable ih => exact ⟨ih.1, Paula.reset_restartsMatch _⟩
  | write reachable addr value ih =>
      exact ⟨(Core.Blocks.write_attached _ addr value).1.trans ih.1,
        Paula.writeRegister16_restartsMatch ih.2 addr value⟩
  | adopt reachable word ih =>
      rw [adoptCore_eq]
      exact ih
  | @render core reachable σ callbacks host ih =>
      obtain ⟨settings, bank, restart, -⟩ := Paula.render_keeps callbacks core host
      simp only [Paula.settings, Prod.mk.injEq] at settings
      have dmaCon : (core.render callbacks host).1.2.dmaCon = core.dmaCon :=
        congrArg Bank.dmacon bank
      refine ⟨settings.2.2.2.1.trans ih.1, fun ch => ?_⟩
      rw [restart, dmaCon]
      exact ih.2 ch

/-- The core between register writes: the steps of its frames, their commits and rollbacks,
the mixer's settings, and whatever else happens to the host. -/
inductive Label (D σ : Type) where
  | walk (label : Core.Blocks.Label D)
  | save
  | rollback
  | adopt (word : UInt32)
  | host (act : σ → σ)

/-- One channel under observation, and the core that a failed frame goes back to. -/
structure Sweep (F D σ : Type) where
  walk : Core.Blocks.State F D σ
  saved : Paula F D

def Sweep.step {σ : Type} (callbacks : Callbacks σ) (ch : Fin 4) (label : Label D σ)
    (sweep : Sweep F D σ) : Sweep F D σ :=
  match label with
  | .walk label => { sweep with walk := Core.Blocks.step callbacks ch label sweep.walk }
  | .save => { sweep with saved := sweep.walk.core }
  | .rollback => { sweep with walk.core := sweep.saved }
  | .adopt word => { sweep with walk.core := adoptCore word sweep.walk.core }
  | .host act => { sweep with walk.host := act sweep.walk.host }

def Sweep.machine {σ : Type} (callbacks : Callbacks σ) (ch : Fin 4) :
    Machine (Sweep F D σ) (Label D σ) where
  step label sweep := some (sweep.step callbacks ch label)

/-- After the lookahead, with the channel's reads to be counted. -/
def Sweep.start {σ : Type} (core : Paula F D) (host : σ) (ch : Fin 4) : Sweep F D σ :=
  ⟨Core.Blocks.start ch core host, core⟩

/-- No register write intervenes, and the requested pages stay ready. -/
def Undisturbed {chip : Nat → UInt8} (pages : List Nat)
    (label : Label D (Speculation (Host chip))) : Prop :=
  match label with
  | .walk (.write _ _) => False
  | .walk (.setLoop _ _ _) => False
  | .host act => ∀ state, Stays pages state.host → Stays pages (act state).host
  | _ => True

/-- A core on its way through the sweep, with so many bytes read. -/
structure OnWay (f : Paula.FetchState) (ch : Fin 4) (bytes : Nat) (core : Paula F D) : Prop where
  read : core.read = true
  enabled : dmaOn core.dmaCon ch = true
  ahead : ∃ words, 2 * words ≤ bytes ∧ Ahead f words (core.channels ch)

variable {f : Paula.FetchState} {ch : Fin 4} {bytes : Nat} {core after : Paula F D}

omit [Floating F] [Floating D] [Arith F D] in
theorem OnWay.mono (onWay : OnWay f ch bytes core) {more : Nat} (least : bytes ≤ more) :
    OnWay f ch more core := by
  obtain ⟨words, most, ahead⟩ := onWay.ahead
  exact ⟨onWay.read, onWay.enabled, words, most.trans least, ahead⟩

omit [Floating F] [Floating D] [Arith F D] in
theorem OnWay.of_keeps (onWay : OnWay f ch bytes core) (keeps : Paula.KeepsRegisters core after)
    (ptr : (after.channels ch).curPtr = (core.channels ch).curPtr)
    (left : (after.channels ch).curWordsLeft = (core.channels ch).curWordsLeft) :
    OnWay f ch bytes after := by
  obtain ⟨settings, bank, -, -⟩ := keeps
  simp only [Paula.settings, Prod.mk.injEq] at settings
  have dmaCon : after.dmaCon = core.dmaCon := congrArg Bank.dmacon bank
  have loc := congrFun (congrArg Bank.loc bank) ch
  have len := congrFun (congrArg Bank.len bank) ch
  obtain ⟨words, most, ahead⟩ := onWay.ahead
  refine ⟨settings.2.2.2.1.trans onWay.read, ?_, words, most, ahead.of_same loc len ptr left⟩
  rw [dmaCon]
  exact onWay.enabled

omit [Floating F] [Floating D] [Arith F D] in
theorem OnWay.updateChannel (onWay : OnWay f ch bytes core) (other : Fin 4) {c : Channel F D}
    (same : Paula.Channel.SameRegisters (core.channels other) c)
    (ptr : c.curPtr = (core.channels other).curPtr)
    (left : c.curWordsLeft = (core.channels other).curWordsLeft) :
    OnWay f ch bytes (core.updateChannel other c) := by
  refine onWay.of_keeps (Paula.updateChannel_keeps core other same) ?_ ?_ <;>
    by_cases own : ch = other
  · subst own
    rw [Paula.updateChannel_self, ptr]
  · rw [Paula.updateChannel_of_ne core own]
  · subst own
    rw [Paula.updateChannel_self, left]
  · rw [Paula.updateChannel_of_ne core own]

variable {chip : Nat → UInt8} {pages : List Nat}
  {walk : Core.Blocks.State F D (Speculation (Host chip))}

theorem recorded_read {σ : Type} (callbacks : Callbacks σ) (address : UInt32)
    (recorded : σ × List Core.Call) :
    (callbacks.recording.read address recorded).2.1 = (callbacks.read address recorded.1).2 ∧
      ((callbacks.recording.read address recorded).2.2.filterMap Core.Call.asRead).length =
        (recorded.2.filterMap Core.Call.asRead).length + 1 := by
  refine ⟨rfl, ?_⟩
  simp [Callbacks.recording, List.filterMap_append, Core.Call.asRead]

theorem recorded_interrupt {σ : Type} (callbacks : Callbacks σ) (bits : UInt16)
    (recorded : σ × List Core.Call) :
    (callbacks.recording.interrupt bits recorded).1 = callbacks.interrupt bits recorded.1 ∧
      ((callbacks.recording.interrupt bits recorded).2.filterMap Core.Call.asRead).length =
        (recorded.2.filterMap Core.Call.asRead).length := by
  refine ⟨rfl, ?_⟩
  simp [Callbacks.recording, List.filterMap_append, Core.Call.asRead]

/-- What a source sample of the observed channel does on its way through the sweep. -/
structure Sampled (f : Paula.FetchState) (ch : Fin 4) (pages : List Nat)
    (walk next : Core.Blocks.State F D (Speculation (Host chip))) : Prop where
  onWay : OnWay f ch next.reads.length next.core
  reads : walk.reads.length ≤ next.reads.length
  stays : Stays pages next.host.host
  quiet : walk.reads.length < 1024 →
    next.host.host.cache.renderMiss = walk.host.host.cache.renderMiss

/-- A source sample stays within the pages of the sweep, for its first 512 words. -/
theorem own_sampled (onWay : OnWay f ch walk.reads.length walk.core) (straight : Straight f)
    (asked : ∀ window ∈ windows f, ∀ page ∈ windowPages window, page ∈ pages)
    (stays : Stays pages walk.host.host) :
    Sampled f ch pages walk (Core.Blocks.step (callbacks (livePort chip)) ch (.advance ch) walk) := by
  let lowered := walk.core.lowered ch
  have lowers : OnWay f ch walk.reads.length lowered :=
    onWay.updateChannel ch ⟨rfl, rfl, rfl, rfl, rfl⟩ rfl rfl
  obtain ⟨words, most, ahead⟩ := lowers.ahead
  cases boundary : (lowered.channels ch).onLowByte with
  | false =>
      have taken : walk.core.takeSample (callbacks (livePort chip)).recording ch
          (walk.host, walk.calls) =
          (lowered.updateChannel ch (lowered.channels ch).secondByte, walk.host, walk.calls) := by
        change lowered.advanceOneSourceSample _ _ _ = _
        simp only [Paula.advanceOneSourceSample, lowers.read, lowers.enabled, boundary]
        rfl
      simp only [Core.Blocks.step, taken, if_pos]
      exact ⟨lowers.updateChannel ch ⟨rfl, rfl, rfl, rfl, rfl⟩ rfl rfl, le_rfl, stays, fun _ => rfl⟩
  | true =>
      obtain ⟨⟨between, interrupted, host⟩, loc, len, ptr, left⟩ :=
        advance_due (callbacks (livePort chip)).recording lowered lowers.read lowers.enabled boundary
          (walk.host, walk.calls)
      have keeps := Paula.advance_keeps (callbacks (livePort chip)).recording lowered ch
        (walk.host, walk.calls)
      have taken : walk.core.takeSample (callbacks (livePort chip)).recording ch
          (walk.host, walk.calls) = lowered.advanceOneSourceSample
            (callbacks (livePort chip)).recording ch (walk.host, walk.calls) := rfl
      have started : Stays pages between.1.host ∧
          between.1.host.cache.renderMiss = walk.host.host.cache.renderMiss ∧
          (between.2.filterMap Core.Call.asRead).length = walk.reads.length := by
        rcases interrupted with rfl | rfl
        · exact ⟨stays, rfl, rfl⟩
        · obtain ⟨state, calls⟩ := recorded_interrupt (callbacks (livePort chip)) (Paula.intBit ch)
            (walk.host, walk.calls)
          rw [state]
          obtain ⟨stays, quiet⟩ := stays.interrupt (Paula.intBit ch)
          exact ⟨stays, quiet, calls⟩
      obtain ⟨ready, quiet, count⟩ := started
      let address := (due (lowered.channels ch)).1
      obtain ⟨low, first⟩ := recorded_read (callbacks (livePort chip)) address between
      obtain ⟨high, second⟩ := recorded_read (callbacks (livePort chip)) (address + 1)
        ((callbacks (livePort chip)).recording.read address between).2
      have positive : 0 < (due (lowered.channels ch)).2 :=
        UInt32.lt_iff_toNat_lt.mpr (ahead.due_words straight)
      rw [if_pos positive] at left
      simp only [Core.Blocks.step, taken, if_pos]
      generalize lowered.advanceOneSourceSample (callbacks (livePort chip)).recording ch
        (walk.host, walk.calls) = after at host loc len ptr left keeps
      obtain ⟨settings, bank, -, -⟩ := keeps
      simp only [Paula.settings, Prod.mk.injEq] at settings
      have dmaCon : after.1.dmaCon = lowered.dmaCon := congrArg Bank.dmacon bank
      have reads : (after.2.2.filterMap Core.Call.asRead).length = walk.reads.length + 2 := by
        rw [host, second, first, count]
      refine ⟨⟨settings.2.2.2.1.trans lowers.read, ?_, words + 1, ?_, ?_⟩, ?_, ?_, ?_⟩
      · rw [dmaCon]
        exact lowers.enabled
      · rw [Core.Blocks.State.reads, reads]
        omega
      · exact ahead.fetch straight loc len ptr left
      · exact (Nat.le_add_right _ 2).trans reads.ge
      · rw [host, high, low]
        exact (ready.readByte address).readByte (address + 1)
      · intro within
        have covered : ∀ {byte : UInt32}, address.toNat ≤ byte.toNat →
            byte.toNat ≤ address.toNat + 1 → byte < chipLimit → pageOf byte ∈ pages := by
          intro byte after before below
          obtain ⟨window, member, page⟩ := ahead.covered straight (by omega) below after before
          exact asked window member _ page
        have next : (address + 1).toNat = address.toNat + 1 := ahead.second_toNat straight
        rw [host, high, low, ← quiet]
        exact ((ready.readByte address).readByte_quiet (covered (by omega) (by omega))).trans
          (ready.readByte_quiet (covered le_rfl (by omega)))

/-- What holds as long as no register write intervenes. -/
structure Sweeping (f : Paula.FetchState) (ch : Fin 4) (pages : List Nat)
    (sweep : Sweep F D (Speculation (Host chip))) : Prop where
  onWay : OnWay f ch sweep.walk.reads.length sweep.walk.core
  saved : OnWay f ch sweep.walk.reads.length sweep.saved
  stays : Stays pages sweep.walk.host.host

theorem step_sweeping (straight : Straight f)
    (asked : ∀ window ∈ windows f, ∀ page ∈ windowPages window, page ∈ pages)
    {label : Label D (Speculation (Host chip))} {sweep : Sweep F D (Speculation (Host chip))}
    (undisturbed : Undisturbed pages label) (sweeping : Sweeping f ch pages sweep) :
    Sweeping f ch pages (sweep.step (callbacks (livePort chip)) ch label) := by
  obtain ⟨onWay, saved, stays⟩ := sweeping
  cases label with
  | save => exact ⟨onWay, onWay, stays⟩
  | rollback => exact ⟨saved, saved, stays⟩
  | host act => exact ⟨onWay, saved, undisturbed _ stays⟩
  | adopt word =>
      have adopted : OnWay f ch sweep.walk.reads.length (adoptCore word sweep.walk.core) := by
        rw [adoptCore_eq]
        exact ⟨onWay.read, onWay.enabled, onWay.ahead⟩
      exact ⟨adopted, saved, stays⟩
  | walk label =>
      cases label with
      | write addr value => exact undisturbed.elim
      | setLoop other loc lenWords => exact undisturbed.elim
      | beginFrame => exact ⟨⟨onWay.read, onWay.enabled, onWay.ahead⟩, saved, stays⟩
      | elapse other samplesPerOutFrame =>
          exact ⟨onWay.updateChannel other ⟨rfl, rfl, rfl, rfl, rfl⟩ rfl rfl, saved, stays⟩
      | mix other =>
          have cursor : SameCursor (sweep.walk.core.channels ch)
              ((sweep.walk.core.mixed other).channels ch) :=
            Core.Blocks.mixed_sameCursor sweep.walk.core other
          exact ⟨onWay.of_keeps (Core.Blocks.mixed_keeps _ other) cursor.ptr cursor.left, saved, stays⟩
      | advance other =>
          by_cases own : other = ch
          · subst own
            obtain ⟨ahead, reads, ready, -⟩ := own_sampled onWay straight asked stays
            exact ⟨ahead, saved.mono reads, ready⟩
          · have lowers : OnWay f ch sweep.walk.reads.length (sweep.walk.core.lowered other) :=
              onWay.updateChannel other ⟨rfl, rfl, rfl, rfl, rfl⟩ rfl rfl
            have channel := Core.Blocks.advance_other (callbacks (livePort chip)).recording
              (sweep.walk.core.lowered other) own (sweep.walk.host, sweep.walk.calls)
            let held : Speculation (Host chip) × List Core.Call → Prop :=
              fun recorded => Stays pages recorded.1.host
            have start : held (sweep.walk.host, sweep.walk.calls) := stays
            have host := Paula.advance_host (callbacks (livePort chip)).recording held
              (fun address _ stays => stays.readByte address)
              (fun bits _ stays => (stays.interrupt bits).1)
              (sweep.walk.core.lowered other) other start
            simp only [Sweep.step, Core.Blocks.step, if_neg own]
            refine ⟨lowers.of_keeps (Paula.advance_keeps _ _ other _) ?_ ?_, saved, host⟩
            · exact congrArg Channel.curPtr channel
            · exact congrArg Channel.curWordsLeft channel

/-- After one sweep of the lookahead, the next 512 words of a channel come without a miss,
as long as the pages that the sweep asks for are ready and no register is written. -/
theorem lookahead_covers {core : Paula F D} (reachable : Reachable core) {ch : Fin 4}
    (enabled : dmaOn core.dmaCon ch = true) (programmed : (core.channels ch).lenWordsLatched ≠ 0)
    (current : (core.fetchState ch).cursor.toNat + 2 * (core.fetchState ch).wordsLeft.toNat ≤ 2 ^ 32)
    (next : (core.fetchState ch).loop.toNat + 2 * (core.fetchState ch).loopWords.toNat ≤ 2 ^ 32)
    {state : Speculation (Host chip)} (stays : Stays (requestedPages core) state.host)
    {labels : List (Label D (Speculation (Host chip)))}
    {sweep : Sweep F D (Speculation (Host chip))}
    (run : (Sweep.machine (callbacks (livePort chip)) ch).Runs
      (fun label _ => Undisturbed (requestedPages core) label) (.start core state ch) labels sweep)
    (within : sweep.walk.reads.length < 2 * 512) :
    (∀ cache, prefetch (livePort chip) core ⟨cache, []⟩ =
      ⟨(requestedPages core).foldl Cache.prefetchPage cache, []⟩) ∧
    (Core.Blocks.step (callbacks (livePort chip)) ch (.advance ch) sweep.walk).host.host.cache.renderMiss =
      sweep.walk.host.host.cache.renderMiss := by
  refine ⟨prefetch_requests chip core, ?_⟩
  obtain ⟨attached, restarts⟩ := reachable.sound
  have running : (core.channels ch).dmaWantsRestart = false := by
    rw [restarts ch, enabled]
    rfl
  have straight : Straight (core.fetchState ch) := ⟨enabled, programmed, current, next⟩
  have asked : ∀ window ∈ windows (core.fetchState ch), ∀ page ∈ windowPages window,
      page ∈ requestedPages core := fun window member page inside =>
    List.mem_flatMap.mpr ⟨window, List.mem_flatMap.mpr ⟨ch, List.mem_finRange ch, member⟩, inside⟩
  have onWay : OnWay (core.fetchState ch) ch 0 core :=
    ⟨attached, enabled, 0, le_rfl, ahead_fetchState core running⟩
  have sweeping : Sweeping (core.fetchState ch) ch (requestedPages core) sweep := by
    refine run.invariant (motive := Sweeping (core.fetchState ch) ch (requestedPages core)) ?_
      ⟨onWay, onWay, stays⟩
    intro label before after undisturbed stepped sweeping
    cases stepped
    exact step_sweeping straight asked undisturbed sweeping
  exact (own_sampled sweeping.onWay straight asked sweeping.stays).quiet within

/-- One word at location zero, looping, and a cache that has everything. -/
def oneWord : Paula ℚ ℚ :=
  ((init (livePort fun _ => 0) ⟨PageCache.sampleCache, []⟩).1.core.writeRegister16 0xdff0a4 1).writeRegister16
    0xdff096 0x8201

def everything : Speculation (Host fun _ => 0) :=
  ⟨true, 0, ⟨{ PageCache.sampleCache with pageMeta := fun _ => ready }, []⟩⟩

/-- A frame that fails after the first word, and the word once more. -/
theorem lookahead_covers_of_oneWord :
    let port := livePort fun _ => 0
    let failed : Sweep ℚ ℚ (Speculation (Host fun _ => 0)) :=
      Sweep.step (callbacks port) 0 .rollback <|
        Sweep.step (callbacks port) 0 (.walk (.advance 0)) (.start oneWord everything 0)
    (Core.Blocks.step (callbacks port) 0 (.advance 0) failed.walk).host.host.cache.renderMiss =
      failed.walk.host.host.cache.renderMiss := by
  intro port failed
  have reachable : Reachable oneWord := ((Reachable.init _ _).write _ _).write _ _
  have stays : Stays (requestedPages oneWord) everything.host :=
    ⟨fun _ _ => show tag ready = ready by decide, fun _ member => absurd member List.not_mem_nil⟩
  have run : (Sweep.machine (callbacks port) 0).Runs
      (fun label _ => Undisturbed (requestedPages oneWord) label) (.start oneWord everything 0)
      [.walk (.advance 0), .rollback] failed :=
    .step trivial rfl (.step trivial rfl (.refl _))
  exact (lookahead_covers reachable (by decide) (by decide) (by decide) (by decide) stays run
    (by decide)).2

end Machine

end Paulastorm.Live
