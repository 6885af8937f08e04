import Mathlib.Data.UInt
import Mathlib.Logic.Function.Basic

namespace Paulastorm.Boot

/-! The numeric options of the boot command line (`parse_cmdline` in `start.c`).

`find_token` is not in the repository.  Its answers for one command line are a parameter:
the place of a token, if the token is on the line.
-/

/-- Memory from the start of the command line on. -/
abbrev Text := Nat → UInt8

/-- `find_token(cmdline, ·)`. -/
abbrev FindToken := String → Option Nat

/-- `c < '0' || c > '9'`. -/
def notDigit (c : UInt8) : Bool := decide (c < 48) || decide (c > 57)

/-- A value, and the places of the command line that were looked at for it. -/
structure Scan where
  value : UInt32
  examined : List Nat
deriving Repr, DecidableEq

/-- A digit loop of at most `limit` turns. -/
def scanDigits (text : Text) : Nat → Nat → UInt32 → Scan
  | 0, _, val => ⟨val, []⟩
  | limit + 1, place, val =>
      let c := text place
      if notDigit c then ⟨val, [place]⟩
      else
        let rest := scanDigits text limit (place + 1) (val * 10 + c.toUInt32 - 48)
        ⟨rest.value, place :: rest.examined⟩

/-- What the options have in common: the spellings in the order they are looked for, the
index of the first digit from the token on, the turns of the digit loop, and the range
tests, from the old value of the variable and the number read to the new value. -/
structure NumericOption where
  spellings : List String
  offset : Nat
  limit : Nat
  adopt : UInt32 → UInt32 → UInt32

def atMost (bound val : UInt32) : UInt32 := if val > bound then bound else val

def atLeastOne (val : UInt32) : UInt32 := if val = 0 then 1 else val

/-- The variables that the numeric options set. -/
inductive Setting where
  | emu68Icnt
  | emu68Ccrd
  | emu68Irng
  | csDist
  | membench
  | buptest
  | bupiter
  | vidMemory
  | romCopy
deriving DecidableEq, Repr

def Setting.all : List Setting :=
  [.emu68Icnt, .emu68Ccrd, .emu68Irng, .csDist, .membench, .buptest, .bupiter, .vidMemory, .romCopy]

/-- The option behind each variable. -/
def numeric : Setting → NumericOption
  | .emu68Icnt => ⟨["ICNT="], 5, 4, fun _ val => atMost 256 (atLeastOne val)⟩
  | .emu68Ccrd => ⟨["CCRD="], 5, 4, fun _ val => atMost 31 val⟩
  | .emu68Irng => ⟨["IRNG="], 5, 7, fun _ val => atMost 65535 val⟩
  | .csDist => ⟨["cs_dist=", "SCS="], 8, 4, fun _ cs => atMost 8 (atLeastOne cs)⟩
  | .membench => ⟨["membench="], 9, 4, fun _ bench => atMost 2047 bench⟩
  | .buptest => ⟨["buptest="], 8, 4, fun _ bup => atMost 2048 bup⟩
  | .bupiter => ⟨["bupiter="], 8, 2, fun _ iter => atMost 9 iter⟩
  | .vidMemory => ⟨["vc4.mem="], 8, 3, fun old vmem => if vmem ≤ 256 then vmem &&& ~~~1 else old⟩
  | .romCopy =>
      ⟨["copy_rom="], 9, 4, fun old c =>
        if c = 256 ∨ c = 512 ∨ c = 1024 ∨ c = 2048 then c else old⟩

/-- One block of `parse_cmdline`. -/
def NumericOption.parse (option : NumericOption) (findToken : FindToken) (text : Text)
    (old : UInt32) : Scan :=
  match option.spellings.findSome? findToken with
  | none => ⟨old, []⟩
  | some tok =>
      let scan := scanDigits text option.limit (tok + option.offset) 0
      ⟨option.adopt old scan.value, scan.examined⟩

abbrev Settings := Setting → UInt32

/-- The numeric part of `parse_cmdline`: no block reads what another one sets. -/
def parseCmdline (findToken : FindToken) (text : Text) (settings : Settings) : Settings :=
  fun setting => ((numeric setting).parse findToken text (settings setting)).value

/-- Every place that `parse_cmdline` looks at behind a token. -/
def examined (findToken : FindToken) (text : Text) : List Nat :=
  Setting.all.flatMap fun setting => ((numeric setting).parse findToken text 0).examined

/-! What an option means. -/

/-- The first spelling that is on the line, and its place. -/
def NumericOption.used (option : NumericOption) (findToken : FindToken) : Option (String × Nat) :=
  option.spellings.findSome? fun name => (findToken name).map (name, ·)

/-- The digits from a place on, at most `limit` of them. -/
def digitsAt (text : Text) (place limit : Nat) : List UInt8 :=
  ((List.range' place limit).map text).takeWhile fun c => !notDigit c

def decimalFrom (value : Nat) (digits : List UInt8) : Nat :=
  digits.foldl (fun value c => value * 10 + (c.toNat - 48)) value

def decimal (digits : List UInt8) : Nat := decimalFrom 0 digits

/-- Tokens are on the line, and the line ends with a NUL. -/
structure OnLine (findToken : FindToken) (text : Text) (nul : Nat) : Prop where
  terminated : text nul = 0
  inside : ∀ name tok, findToken name = some tok → tok + name.length ≤ nul

/-- Every option found adopts its digits, whatever stands elsewhere, and nothing past the
NUL is looked at. -/
structure Uniform (findToken : FindToken) (text : Text) (nul : Nat) : Prop where
  adopted : ∀ setting name tok, (numeric setting).used findToken = some (name, tok) →
    ∀ other : Text,
      (∀ place, tok ≤ place → place < tok + name.length + (numeric setting).limit →
        other place = text place) →
      ∀ settings, parseCmdline findToken other settings setting =
        (numeric setting).adopt (settings setting)
          (UInt32.ofNat (decimal (digitsAt text (tok + name.length) (numeric setting).limit)))
  bounded : ∀ place ∈ examined findToken text, place ≤ nul

section Scanning

variable {text other : Text} {nul : Nat}

theorem digit_bounds {c : UInt8} (digit : notDigit c = false) : 48 ≤ c.toNat := by
  simp only [notDigit, Bool.or_eq_false_iff, decide_eq_false_iff_not, UInt8.lt_iff_toNat_lt] at digit
  exact Nat.le_of_not_lt digit.1

/-- One turn of the loop appends a decimal digit. -/
theorem append_digit {c : UInt8} (digit : notDigit c = false) (value : Nat) :
    UInt32.ofNat value * 10 + c.toUInt32 - 48 = UInt32.ofNat (value * 10 + (c.toNat - 48)) := by
  have lower := digit_bounds digit
  have number : c.toUInt32 = UInt32.ofNat (c.toNat - 48) + 48 := by
    have small := c.toNat_lt
    apply UInt32.toNat_inj.mp
    have base : (48 : UInt32).toNat = 48 := rfl
    rw [UInt32.toNat_add, UInt32.toNat_ofNat', base, UInt8.toNat_toUInt32]
    omega
  rw [number, ← UInt32.add_assoc, UInt32.add_sub_cancel, UInt32.ofNat_add, UInt32.ofNat_mul]
  rfl

/-- The loop reads the decimal number of the digits at its place. -/
theorem scanDigits_value (text : Text) (limit place value : Nat) :
    (scanDigits text limit place (UInt32.ofNat value)).value =
      UInt32.ofNat (decimalFrom value (digitsAt text place limit)) := by
  induction limit generalizing place value with
  | zero => rfl
  | succ limit ih =>
      rw [scanDigits, digitsAt, List.range'_succ, List.map_cons, List.takeWhile_cons]
      dsimp only
      cases digit : notDigit (text place) with
      | true => rfl
      | false =>
          rw [append_digit digit]
          exact ih (place + 1) _

/-- The loop stops at the NUL at the latest. -/
theorem scanDigits_examined (terminated : text nul = 0) (limit : Nat) {place : Nat}
    (inside : place ≤ nul) (val : UInt32) :
    ∀ looked ∈ (scanDigits text limit place val).examined, looked ≤ nul := by
  induction limit generalizing place val with
  | zero => exact fun _ member => by cases member
  | succ limit ih =>
      rw [scanDigits]
      dsimp only
      cases digit : notDigit (text place) with
      | true =>
          intro looked member
          rw [if_pos rfl, List.mem_singleton] at member
          exact member ▸ inside
      | false =>
          have below : place ≠ nul := by
            rintro rfl
            rw [terminated] at digit
            exact absurd digit (by decide)
          intro looked member
          rw [if_neg (by decide), List.mem_cons] at member
          rcases member with rfl | later
          · exact inside
          · exact ih (by omega) _ looked later

theorem digitsAt_congr {place limit : Nat}
    (same : ∀ index, place ≤ index → index < place + limit → other index = text index) :
    digitsAt other place limit = digitsAt text place limit := by
  have mapped : (List.range' place limit).map other = (List.range' place limit).map text := by
    apply List.map_congr_left
    intro index member
    obtain ⟨lower, upper⟩ := List.mem_range'_1.mp member
    exact same index lower upper
  rw [digitsAt, mapped, digitsAt]

end Scanning

section Options

variable {findToken : FindToken} {text : Text} {nul : Nat}

theorem findSome?_map_snd (spellings : List String) :
    spellings.findSome? findToken =
      (spellings.findSome? fun name => (findToken name).map (name, ·)).map Prod.snd := by
  induction spellings with
  | nil => rfl
  | cons name rest ih =>
      rw [List.findSome?_cons, List.findSome?_cons]
      cases findToken name with
      | none => exact ih
      | some tok => rfl

theorem NumericOption.parse_of_used {option : NumericOption} {name : String} {tok : Nat}
    (used : option.used findToken = some (name, tok)) (text : Text) (old : UInt32) :
    option.parse findToken text old =
      ⟨option.adopt old (scanDigits text option.limit (tok + option.offset) 0).value,
        (scanDigits text option.limit (tok + option.offset) 0).examined⟩ := by
  have found : option.spellings.findSome? findToken = some tok := by
    rw [findSome?_map_snd]
    exact congrArg (Option.map Prod.snd) used
  rw [parse, found]

/-- The spelling used is one of the option's, and the token is there. -/
theorem NumericOption.found_of_used {option : NumericOption} {name : String} {tok : Nat}
    (used : option.used findToken = some (name, tok)) :
    name ∈ option.spellings ∧ findToken name = some tok := by
  obtain ⟨spelling, member, found⟩ := List.exists_of_findSome?_eq_some used
  obtain ⟨place, here, pair⟩ := Option.map_eq_some_iff.mp found
  cases pair
  exact ⟨member, here⟩

/-- The digits of an option are looked for right behind its spelling, but for `SCS=`. -/
theorem offset_eq_length (setting : Setting) {name : String}
    (member : name ∈ (numeric setting).spellings) (notShort : name ≠ "SCS=") :
    (numeric setting).offset = name.length := by
  cases setting with
  | csDist =>
      rcases List.mem_cons.mp member with rfl | short
      · rfl
      · exact absurd (List.mem_singleton.mp short) notShort
  | _ =>
      rw [List.mem_singleton.mp member]
      rfl

/-- `SCS=` is used where `cs_dist=` is not on the line, and by no other option. -/
theorem used_short {setting : Setting} {tok : Nat}
    (used : (numeric setting).used findToken = some ("SCS=", tok)) :
    setting = .csDist ∧ findToken "cs_dist=" = none ∧ findToken "SCS=" = some tok := by
  have found := NumericOption.found_of_used used
  cases setting with
  | csDist =>
      refine ⟨rfl, ?_, found.2⟩
      cases long : findToken "cs_dist=" with
      | none => rfl
      | some place =>
          have first : (numeric .csDist).used findToken = some ("cs_dist=", place) := by
            simp only [NumericOption.used, numeric, List.findSome?_cons, long, Option.map_some]
          rw [first] at used
          have names : "cs_dist=" = "SCS=" := (Prod.mk.inj (Option.some.inj used)).1
          exact absurd names (by decide)
  | _ => exact absurd (List.mem_singleton.mp found.1) (by decide)

/-- Behind a spelling whose length is the offset the loop reads the option's own digits. -/
theorem parse_adopts {setting : Setting} {name : String} {tok : Nat}
    (used : (numeric setting).used findToken = some (name, tok)) (notShort : name ≠ "SCS=")
    {other : Text}
    (same : ∀ place, tok ≤ place → place < tok + name.length + (numeric setting).limit →
      other place = text place) (settings : Settings) :
    parseCmdline findToken other settings setting =
      (numeric setting).adopt (settings setting)
        (UInt32.ofNat (decimal (digitsAt text (tok + name.length) (numeric setting).limit))) := by
  have member := (NumericOption.found_of_used used).1
  have value := scanDigits_value other (numeric setting).limit (tok + name.length) 0
  have own : digitsAt other (tok + name.length) (numeric setting).limit =
      digitsAt text (tok + name.length) (numeric setting).limit :=
    digitsAt_congr fun place lower upper => same place (by omega) upper
  rw [own] at value
  rw [parseCmdline, NumericOption.parse_of_used used, offset_eq_length setting member notShort]
  exact congrArg _ value

theorem examined_bounded (onLine : OnLine findToken text nul)
    (notShort : ∀ setting tok, (numeric setting).used findToken ≠ some ("SCS=", tok)) :
    ∀ place ∈ examined findToken text, place ≤ nul := by
  intro place member
  obtain ⟨setting, -, looked⟩ := List.mem_flatMap.mp member
  cases used : (numeric setting).used findToken with
  | none =>
      have absent : (numeric setting).spellings.findSome? findToken = none := by
        rw [findSome?_map_snd]
        exact congrArg (Option.map Prod.snd) used
      rw [NumericOption.parse, absent] at looked
      cases looked
  | some pair =>
      obtain ⟨name, tok⟩ := pair
      obtain ⟨spelling, found⟩ := NumericOption.found_of_used used
      have long : name ≠ "SCS=" := by
        rintro rfl
        exact notShort setting tok used
      rw [NumericOption.parse_of_used used, offset_eq_length setting spelling long] at looked
      exact scanDigits_examined onLine.terminated _ (onLine.inside name tok found) _ place looked

/-- The digit loop of `cs_dist=` reads four characters too late behind `SCS=`. -/
theorem parse_short {tok : Nat} (used : (numeric .csDist).used findToken = some ("SCS=", tok))
    (settings : Settings) :
    parseCmdline findToken (Function.update text (tok + 8) 0) settings .csDist = 1 ∧
      parseCmdline findToken (Function.update (Function.update text (tok + 8) 50) (tok + 9) 0)
        settings .csDist = 2 := by
  have step : tok + 8 ≠ tok + 9 := by omega
  constructor
  · rw [parseCmdline, NumericOption.parse_of_used used]
    change atMost 8 (atLeastOne (scanDigits _ 4 (tok + 8) 0).value) = 1
    rw [scanDigits, Function.update_self]
    rfl
  · rw [parseCmdline, NumericOption.parse_of_used used]
    change atMost 8 (atLeastOne (scanDigits _ 4 (tok + 8) 0).value) = 2
    rw [scanDigits, Function.update_of_ne step, Function.update_self, scanDigits,
      Function.update_self]
    rfl

/-- Every numeric option is parsed by its own text alone exactly where `SCS=` is not the
spelling used. -/
theorem cmdline_uniform_iff (onLine : OnLine findToken text nul) :
    Uniform findToken text nul ↔ (findToken "cs_dist=").isSome ∨ findToken "SCS=" = none := by
  constructor
  · intro uniform
    by_contra short
    rw [not_or, Option.not_isSome_iff_eq_none] at short
    obtain ⟨tok, found⟩ := Option.ne_none_iff_exists'.mp short.2
    have used : (numeric .csDist).used findToken = some ("SCS=", tok) := by
      simp only [NumericOption.used, numeric, List.findSome?_cons, short.1, found, Option.map_some,
        Option.map_none]
    have own : "SCS=".length = 4 := by decide
    have limit : (numeric .csDist).limit = 4 := rfl
    have first := uniform.adopted .csDist "SCS=" tok used (Function.update text (tok + 8) 0) (by
      intro place _ upper
      exact Function.update_of_ne (by omega) _ _) (fun _ => 0)
    have second := uniform.adopted .csDist "SCS=" tok used
      (Function.update (Function.update text (tok + 8) 50) (tok + 9) 0) (by
        intro place _ upper
        rw [Function.update_of_ne (by omega), Function.update_of_ne (by omega)]) (fun _ => 0)
    rw [(parse_short used _).1] at first
    rw [(parse_short used _).2, ← first] at second
    exact absurd second (by decide)
  · intro long
    have notShort : ∀ setting tok, (numeric setting).used findToken ≠ some ("SCS=", tok) := by
      intro setting tok used
      obtain ⟨-, absent, found⟩ := used_short used
      rw [absent, found] at long
      rcases long with some | none
      · cases some
      · cases none
    refine ⟨?_, examined_bounded onLine notShort⟩
    intro setting name tok used other same settings
    apply parse_adopts used _ same settings
    rintro rfl
    exact notShort setting tok used

end Options

/-- A line as memory, with zeros behind it. -/
def lineText (line : String) : Text := fun place => (line.toUTF8.data.getD place 0)

/-- The tokens of a line with a single one. -/
def oneToken (name : String) (tok : Nat) : FindToken :=
  fun asked => if asked = name then some tok else none

theorem cmdline_uniform_iff_of_bupiter :
    Uniform (oneToken "bupiter=" 2) (lineText "a bupiter=7") 11 := by
  have onLine : OnLine (oneToken "bupiter=" 2) (lineText "a bupiter=7") 11 := by
    refine ⟨by decide +kernel, ?_⟩
    intro name tok found
    rw [oneToken] at found
    split at found
    next same =>
      cases found
      rw [same]
      decide
    next => cases found
  exact (cmdline_uniform_iff onLine).mpr (.inr (by decide))

/-- `SCS=3` sets the distance to 1, after a look past the end of the line; the other
spelling sets it to 3. -/
theorem short_spelling_misread :
    (parseCmdline (oneToken "SCS=" 0) (lineText "SCS=3") (fun _ => 1) .csDist,
      parseCmdline (oneToken "cs_dist=" 0) (lineText "cs_dist=3") (fun _ => 1) .csDist,
      examined (oneToken "SCS=" 0) (lineText "SCS=3")) = (1, 3, [8]) ∧
    ¬Uniform (oneToken "SCS=" 0) (lineText "SCS=3") 5 := by
  constructor
  · decide +kernel
  · intro uniform
    have late := uniform.bounded 8 (by decide +kernel)
    exact absurd late (by decide)

end Paulastorm.Boot
