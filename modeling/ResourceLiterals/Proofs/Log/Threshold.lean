import Mathlib.Data.List.TakeWhile
import ResourceLiterals.Log.Threshold
import ResourceLiterals.Proofs.Entries

/-!
# The level that the environment asks for

A text in the environment denotes a level when, without the blanks around it and in upper case, it
is the name of one or a number.  That level is meant to hold, and the one of critical records when
the text denotes none.  Two kinds of texts miss this: digits that are not converted to a number keep
the logger from being set up at all, and the level zero is taken for no level.

* `Denotes` says which texts denote a level, and `Refuses` which ones are digits that are not
  converted.  `environmentLevel_of_refuses`, `environmentLevel_of_denotes` and
  `environmentLevel_of_neither` are what comes of reading them.
* `TakesEffect` is what is meant to happen, and `takesEffect_iff` says for which environments it
  does.
* `RootLogger.setUpAll` sets the logger up again and again, and `setUpAll_eq` says that only the
  last level counts.
-/

namespace ResourceLiterals.Log

open RootLogger (fallbackLevel)
open Text (decimalValue? digitLimit isDigit placeValue)

variable {chars : List Char} {text : String} {level : Int} {error : LevelError}
  {environment : Option String}

/-! ## Texts that denote levels -/

/-- The characters of a text without the blanks around it and in upper case. -/
def tidied (text : String) : List Char := (Text.strip text.toList).map upper

/-- The level that characters denote. -/
inductive Denotes (chars : List Char) : Int → Prop where
  | name {level : Int} (h : (String.ofList chars, level) ∈ namedLevels) : Denotes chars level
  /-- The digits may be of any scripts. -/
  | number (hne : chars ≠ []) (h : ∀ c ∈ chars, (decimalValue? c).isSome = true) :
    Denotes chars (placeValue 10 (chars.filterMap decimalValue?))

/-- The characters up to the first one that is not a decimal digit. -/
def decimals (chars : List Char) : List Char :=
  chars.takeWhile fun c => (decimalValue? c).isSome

/-- The characters are digits, but they are not converted to a number. -/
inductive Refuses (chars : List Char) : LevelError → Prop where
  | tooLong (hdigits : chars.all isDigit = true) (h : digitLimit < (decimals chars).length) :
    Refuses chars (.tooLong (decimals chars).length)
  | notDecimal (hdigits : chars.all isDigit = true)
    (h : (decimals chars).length ≤ digitLimit) (hother : decimals chars ≠ chars) :
    Refuses chars (.notDecimal chars)

/-! ### Numbers -/

theorem isDigit_of_isSome {c : Char} (h : (decimalValue? c).isSome = true) : isDigit c = true := by
  simp [isDigit, h]

theorem decimals_eq_self_iff :
    decimals chars = chars ↔ ∀ c ∈ chars, (decimalValue? c).isSome = true :=
  List.takeWhile_eq_self_iff

theorem length_decimals_lt_iff :
    (decimals chars).length < chars.length ↔ decimals chars ≠ chars := by
  have hbefore : decimals chars <+: chars := List.takeWhile_prefix _
  constructor
  · intro hlt hself
    rw [hself] at hlt
    exact Nat.lt_irrefl _ hlt
  · intro hne
    exact Nat.lt_of_le_of_ne hbefore.length_le fun hlength => hne (hbefore.eq_of_length hlength)

theorem Refuses.digits (h : Refuses chars error) :
    chars ≠ [] ∧ chars.all isDigit = true := by
  cases h with
  | tooLong hdigits h =>
    refine ⟨?_, hdigits⟩
    rintro rfl
    exact absurd h (Nat.not_lt_zero _)
  | notDecimal hdigits _ hother =>
    refine ⟨?_, hdigits⟩
    rintro rfl
    exact hother rfl

theorem readLevelNumber_of_refuses (h : Refuses chars error) :
    readLevelNumber chars = .error error := by
  cases h with
  | tooLong _ h => exact if_pos h
  | notDecimal _ h hother =>
    exact (if_neg (Nat.not_lt.mpr h)).trans (if_pos (length_decimals_lt_iff.mpr hother))

theorem readLevelNumber_of_not_refuses (hdigits : chars.all isDigit = true)
    (h : ∀ error, ¬ Refuses chars error) :
    decimals chars = chars ∧
      readLevelNumber chars = .ok (placeValue 10 (chars.filterMap decimalValue?)) := by
  have hlength : ¬ digitLimit < (decimals chars).length := fun hlt => h _ (.tooLong hdigits hlt)
  have hself : decimals chars = chars := by
    by_contra hother
    exact h _ (.notDecimal hdigits (Nat.not_lt.mp hlength) hother)
  have hread : readLevelNumber chars =
      .ok (placeValue 10 ((decimals chars).filterMap decimalValue?)) :=
    (if_neg hlength).trans (if_neg fun hlt => length_decimals_lt_iff.mp hlt hself)
  rw [hself] at hread
  exact ⟨hself, hread⟩

/-! ### Names -/

theorem lookup_namedLevels_iff {name : String} :
    namedLevels.lookup name = some level ↔ (name, level) ∈ namedLevels :=
  lookup_eq_some_iff_mem (by decide)

/-- Names of levels are not made of digits. -/
theorem exists_not_isDigit_of_mem (h : (String.ofList chars, level) ∈ namedLevels) :
    ∃ c ∈ chars, isDigit c = false := by
  have hall : namedLevels.all (fun entry => entry.1.toList.any fun c => !isDigit c) = true := by
    decide +kernel
  simpa using List.all_eq_true.mp hall _ h

theorem Denotes.unique {other : Int} (h : Denotes chars level) (h' : Denotes chars other) :
    level = other := by
  cases h with
  | name hname =>
    cases h' with
    | name hname' =>
      rw [← lookup_namedLevels_iff] at hname hname'
      exact Option.some.inj (hname.symm.trans hname')
    | number _ hdigits =>
      obtain ⟨c, hc, hdigit⟩ := exists_not_isDigit_of_mem hname
      exact absurd (isDigit_of_isSome (hdigits c hc)) (by simp [hdigit])
  | number _ hdigits =>
    cases h' with
    | name hname' =>
      obtain ⟨c, hc, hdigit⟩ := exists_not_isDigit_of_mem hname'
      exact absurd (isDigit_of_isSome (hdigits c hc)) (by simp [hdigit])
    | number => rfl

/-! ## Reading the environment -/

/-- Texts that are empty or blank take the same way as those that are not digits. -/
theorem environmentLevel_some (text : String) :
    environmentLevel (some text) =
      if tidied text ≠ [] ∧ (tidied text).all isDigit = true then
        (readLevelNumber (tidied text)).map some
      else
        .ok (namedLevels.lookup (String.ofList (tidied text))) := by
  rw [environmentLevel]
  split
  · rename_i hempty
    subst hempty
    rfl
  · simp [tidied]

theorem environmentLevel_of_refuses (h : Refuses (tidied text) error) :
    environmentLevel (some text) = .error error := by
  rw [environmentLevel_some, if_pos h.digits, readLevelNumber_of_refuses h]
  rfl

theorem environmentLevel_of_denotes (h : Denotes (tidied text) level)
    (hrefuses : ∀ error, ¬ Refuses (tidied text) error) :
    environmentLevel (some text) = .ok (some level) := by
  rw [environmentLevel_some]
  cases h with
  | name hname =>
    obtain ⟨c, hc, hdigit⟩ := exists_not_isDigit_of_mem hname
    have hother : ¬ (tidied text ≠ [] ∧ (tidied text).all isDigit = true) := fun hdigits => by
      simp [List.all_eq_true.mp hdigits.2 c hc] at hdigit
    rw [if_neg hother, lookup_namedLevels_iff.mpr hname]
  | number hne hdecimal =>
    have hdigits : (tidied text).all isDigit = true :=
      List.all_eq_true.mpr fun c hc => isDigit_of_isSome (hdecimal c hc)
    rw [if_pos ⟨hne, hdigits⟩, (readLevelNumber_of_not_refuses hdigits hrefuses).2]
    rfl

theorem environmentLevel_of_neither (h : ∀ level, ¬ Denotes (tidied text) level)
    (hrefuses : ∀ error, ¬ Refuses (tidied text) error) :
    environmentLevel (some text) = .ok none := by
  rw [environmentLevel_some]
  split
  · rename_i hdigits
    have hself := (readLevelNumber_of_not_refuses hdigits.2 hrefuses).1
    exact absurd (.number hdigits.1 (decimals_eq_self_iff.mp hself)) (h _)
  · have hlookup : namedLevels.lookup (String.ofList (tidied text)) = none := by
      refine Option.eq_none_iff_forall_ne_some.mpr fun level hlevel => ?_
      exact h level (.name (lookup_namedLevels_iff.mp hlevel))
    rw [hlookup]

/-- The environment holds a text that denotes the level. -/
def Asks (environment : Option String) (level : Int) : Prop :=
  ∃ text, environment = some text ∧ Denotes (tidied text) level

/-- The environment holds a text that is not converted. -/
def Spoils (environment : Option String) (error : LevelError) : Prop :=
  ∃ text, environment = some text ∧ Refuses (tidied text) error

theorem Asks.unique {other : Int} (h : Asks environment level) (h' : Asks environment other) :
    level = other := by
  obtain ⟨text, rfl, hlevel⟩ := h
  obtain ⟨_, htext, hother⟩ := h'
  obtain rfl := Option.some.inj htext
  exact hlevel.unique hother

theorem fallbackLevel_of_spoils (h : Spoils environment error) :
    fallbackLevel environment = .error error := by
  obtain ⟨text, rfl, htext⟩ := h
  rw [fallbackLevel, environmentLevel_of_refuses htext]
  rfl

theorem fallbackLevel_of_asks (h : Asks environment level)
    (hspoils : ∀ error, ¬ Spoils environment error) :
    fallbackLevel environment = .ok (if level = 0 then criticalLevel else level) := by
  obtain ⟨text, rfl, htext⟩ := h
  have hrefuses : ∀ error, ¬ Refuses (tidied text) error := fun error herror =>
    hspoils error ⟨text, rfl, herror⟩
  rw [fallbackLevel, environmentLevel_of_denotes htext hrefuses]
  by_cases hzero : level = 0 <;> simp [Except.map, Option.filter_some, hzero]

theorem fallbackLevel_of_not_asks (h : ∀ level, ¬ Asks environment level)
    (hspoils : ∀ error, ¬ Spoils environment error) :
    fallbackLevel environment = .ok criticalLevel := by
  cases environment with
  | none => rfl
  | some text =>
    have hneither := environmentLevel_of_neither
      (fun level hlevel => h level ⟨text, rfl, hlevel⟩)
      fun error herror => hspoils error ⟨text, rfl, herror⟩
    rw [fallbackLevel, hneither]
    rfl

/-- The level that is meant to hold: the one that the environment asks for, or the one of critical
records if it asks for none. -/
def LevelFor (environment : Option String) (level : Int) : Prop :=
  Asks environment level ∨ (∀ other, ¬ Asks environment other) ∧ level = criticalLevel

theorem fallbackLevel_of_levelFor (h : LevelFor environment level)
    (hspoils : ∀ error, ¬ Spoils environment error) :
    fallbackLevel environment = .ok (if level = 0 then criticalLevel else level) := by
  rcases h with hasks | ⟨hnone, rfl⟩
  · exact fallbackLevel_of_asks hasks hspoils
  · exact fallbackLevel_of_not_asks hnone hspoils

theorem exists_levelFor (environment : Option String) : ∃ level, LevelFor environment level := by
  by_cases hasks : ∃ level, Asks environment level
  · exact hasks.imp fun _ => .inl
  · exact ⟨criticalLevel, .inr ⟨not_exists.mp hasks, rfl⟩⟩

theorem LevelFor.unique {other : Int} (h : LevelFor environment level)
    (h' : LevelFor environment other) : level = other := by
  rcases h with hasks | ⟨hnone, rfl⟩
  · rcases h' with hasks' | ⟨hnone', -⟩
    · exact hasks.unique hasks'
    · exact absurd hasks (hnone' level)
  · rcases h' with hasks' | ⟨-, rfl⟩
    · exact absurd hasks' (hnone other)
    · rfl

theorem fallbackLevel_eq_error_iff :
    fallbackLevel environment = .error error ↔ Spoils environment error := by
  refine ⟨fun h => ?_, fallbackLevel_of_spoils⟩
  by_cases hspoils : ∃ other, Spoils environment other
  · obtain ⟨other, hother⟩ := hspoils
    obtain rfl : other = error := Except.error.inj ((fallbackLevel_of_spoils hother).symm.trans h)
    exact hother
  · obtain ⟨level, hlevel⟩ := exists_levelFor environment
    rw [fallbackLevel_of_levelFor hlevel (not_exists.mp hspoils)] at h
    exact absurd h (by simp)

theorem fallbackLevel_of_ok {found : Int} (h : fallbackLevel environment = .ok found)
    (hlevel : LevelFor environment level) :
    found = if level = 0 then criticalLevel else level := by
  have hspoils : ∀ error, ¬ Spoils environment error := fun error herror => by
    rw [fallbackLevel_of_spoils herror] at h
    exact absurd h (by simp)
  exact Except.ok.inj (h.symm.trans (fallbackLevel_of_levelFor hlevel hspoils))

/-! ## Setting the logger up -/

/-- Setting the logger up without a level raises nothing, and the level that is meant to hold holds
afterwards. -/
def TakesEffect (environment : Option String) : Prop :=
  ∀ logger : RootLogger, ∃ after, logger.setUp none environment = .ok after ∧
    LevelFor environment after.level

theorem removeHandlers_eq (logger : RootLogger) :
    logger.handlers.foldl RootLogger.removeHandler logger = { logger with handlers := [] } := by
  obtain ⟨level, handlers, propagate⟩ := logger
  induction handlers with
  | nil => rfl
  | cons handler rest ih =>
    have hstep : RootLogger.removeHandler ⟨level, handler :: rest, propagate⟩ handler =
        ⟨level, rest, propagate⟩ := by
      simp [RootLogger.removeHandler]
    rw [List.foldl_cons, hstep]
    exact ih

/-- Whatever handlers there are, they are all taken away, and the new one is left. -/
theorem showFrom_eq (level : Int) (logger : RootLogger) :
    logger.showFrom level = ⟨level, [RootLogger.formatFor level], false⟩ := by
  have hcleared := removeHandlers_eq { logger with level }
  rw [RootLogger.showFrom, hcleared]
  rfl

theorem setUp_none (environment : Option String) (logger : RootLogger) :
    logger.setUp none environment = (fallbackLevel environment).map logger.showFrom :=
  rfl

theorem setUp_none_eq_error_iff (environment : Option String) (logger : RootLogger)
    (error : LevelError) :
    logger.setUp none environment = .error error ↔ Spoils environment error := by
  rw [← fallbackLevel_eq_error_iff, setUp_none]
  cases fallbackLevel environment <;> simp [Except.map]

theorem level_of_setUp_none {logger after : RootLogger}
    (h : logger.setUp none environment = .ok after) (hlevel : LevelFor environment level) :
    after.level = if level = 0 then criticalLevel else level := by
  rw [setUp_none] at h
  cases hfallback : fallbackLevel environment with
  | error error =>
    rw [hfallback] at h
    cases h
  | ok found =>
    rw [hfallback] at h
    cases h
    change (logger.showFrom found).level = _
    rw [showFrom_eq]
    exact fallbackLevel_of_ok hfallback hlevel

theorem takesEffect_iff :
    TakesEffect environment ↔ ¬ Asks environment 0 ∧ ∀ error, ¬ Spoils environment error := by
  constructor
  · intro h
    obtain ⟨after, hafter, hlevel⟩ := h .initial
    constructor
    · intro hzero
      have hset := level_of_setUp_none hafter (.inl hzero)
      rw [if_pos rfl] at hset
      have hcritical : after.level = 0 := hlevel.unique (.inl hzero)
      exact absurd (hset.symm.trans hcritical) (by decide)
    · intro error hspoils
      rw [(setUp_none_eq_error_iff environment .initial error).mpr hspoils] at hafter
      cases hafter
  · rintro ⟨hzero, hspoils⟩ logger
    obtain ⟨level, hlevel⟩ := exists_levelFor environment
    have hne : level ≠ 0 := by
      rintro rfl
      rcases hlevel with hasks | ⟨-, hcritical⟩
      · exact hzero hasks
      · exact absurd hcritical (by decide)
    refine ⟨logger.showFrom level, ?_, ?_⟩
    · rw [setUp_none, fallbackLevel_of_levelFor hlevel hspoils, if_neg hne]
      rfl
    · rw [showFrom_eq]
      exact hlevel

/-! ## Setting the logger up again and again -/

/-- How the logger is set up once: with the level that is given, if any, and the environment. -/
structure Call where
  level : Option Int
  environment : Option String

namespace Call

/-- The level that a call sets; one that raises sets none. -/
def level? (call : Call) : Option Int :=
  match call.level with
  | some level => some level
  | none => (fallbackLevel call.environment).toOption

/-- A call that raises leaves the logger as it is. -/
def run (call : Call) (logger : RootLogger) : RootLogger :=
  ((logger.setUp call.level call.environment).toOption).getD logger

theorem run_eq (call : Call) (logger : RootLogger) :
    call.run logger = (call.level?.map logger.showFrom).getD logger := by
  obtain ⟨level, environment⟩ := call
  cases level with
  | some level => rfl
  | none =>
    rw [run, level?, setUp_none]
    cases fallbackLevel environment <;> rfl

theorem level?_eq_none_iff (call : Call) :
    call.level? = none ↔ call.level = none ∧ ∃ error, Spoils call.environment error := by
  obtain ⟨level, environment⟩ := call
  cases level with
  | some level => simp [level?]
  | none =>
    simp only [level?, true_and, ← fallbackLevel_eq_error_iff]
    cases fallbackLevel environment <;> simp [Except.toOption]

end Call

/-- Sets the logger up once for each call, in their order. -/
def RootLogger.setUpAll (calls : List Call) (logger : RootLogger) : RootLogger :=
  calls.foldl (fun logger call => call.run logger) logger

/-- What is left is what the last level made of the logger; nothing of the calls before it is. -/
theorem setUpAll_eq (calls : List Call) (logger : RootLogger) :
    logger.setUpAll calls =
      (((calls.filterMap Call.level?).getLast?).map logger.showFrom).getD logger := by
  induction calls generalizing logger with
  | nil => rfl
  | cons call rest ih =>
    have hrest : logger.setUpAll (call :: rest) = (call.run logger).setUpAll rest := rfl
    rw [hrest, ih, call.run_eq]
    cases hlevel : call.level? with
    | none => simp [hlevel]
    | some level =>
      cases hlast : (rest.filterMap Call.level?).getLast? <;>
        simp [hlevel, hlast, List.getLast?_cons, showFrom_eq]

theorem handlers_setUpAll {calls : List Call} {last : Int}
    (h : (calls.filterMap Call.level?).getLast? = some last) (logger : RootLogger) :
    (logger.setUpAll calls).level = last ∧
      ∃ format, (logger.setUpAll calls).handlers = [format] ∧
        (format = .plain ↔ infoLevel ≤ last) := by
  have hlast : logger.setUpAll calls = ⟨last, [RootLogger.formatFor last], false⟩ := by
    rw [setUpAll_eq, h, ← showFrom_eq last logger]
    rfl
  rw [hlast]
  refine ⟨rfl, RootLogger.formatFor last, rfl, ?_⟩
  rw [RootLogger.formatFor]
  split <;> simp [*]

/-- The level in the environment takes effect unless it is zero or the text is not converted.  In
the first case the logger gets the level of critical records, in the second one it is not set up at
all.  Once a call has set a level there is one handler, and it belongs to the last level. -/
theorem level_from_environment (environment : Option String) (calls : List Call)
    (logger : RootLogger) :
    (TakesEffect environment ↔ ¬ Asks environment 0 ∧ ∀ error, ¬ Spoils environment error) ∧
    (∀ error, logger.setUp none environment = .error error ↔ Spoils environment error) ∧
    (∀ after level, logger.setUp none environment = .ok after → LevelFor environment level →
      after.level = if level = 0 then criticalLevel else level) ∧
    (∀ call ∈ calls,
      call.level? = none ↔ call.level = none ∧ ∃ error, Spoils call.environment error) ∧
    ((∀ call ∈ calls, call.level? = none) → logger.setUpAll calls = logger) ∧
    ∀ last, (calls.filterMap Call.level?).getLast? = some last →
      (logger.setUpAll calls).level = last ∧
        ∃ format, (logger.setUpAll calls).handlers = [format] ∧
          (format = .plain ↔ infoLevel ≤ last) := by
  refine ⟨takesEffect_iff, setUp_none_eq_error_iff environment logger,
    fun _ _ => level_of_setUp_none, fun call _ => call.level?_eq_none_iff, fun hnone => ?_,
    fun _ hlast => handlers_setUpAll hlast logger⟩
  rw [setUpAll_eq, List.filterMap_eq_nil_iff.mpr hnone]
  rfl

/-- Blanks and the case of letters do not matter, and calls that raise leave what there is. -/
theorem level_from_environment_blanks :
    let after : RootLogger := ⟨10, [.withPlace], false⟩
    let calls : List Call := [⟨some 5, none⟩, ⟨none, some "Info\t"⟩, ⟨none, some "²"⟩]
    (RootLogger.initial.setUp none (some " debug\n") = .ok after ∧
      LevelFor (some " debug\n") 10 ∧ after.level = 10) ∧
    (calls.filterMap Call.level?).getLast? = some infoLevel ∧
      (RootLogger.initial.setUpAll calls).level = infoLevel ∧
        (RootLogger.initial.setUpAll calls).handlers = [.plain] := by
  intro after calls
  have hdebug : LevelFor (some " debug\n") 10 :=
    .inl ⟨" debug\n", rfl, .name (by decide +kernel)⟩
  have hafter : RootLogger.initial.setUp none (some " debug\n") = .ok after := by decide +kernel
  have hlast : (calls.filterMap Call.level?).getLast? = some infoLevel := by decide +kernel
  obtain ⟨-, -, heffect, -, -, hrun⟩ :=
    level_from_environment (some " debug\n") calls .initial
  obtain ⟨hlevel, format, hhandlers, hformat⟩ := hrun infoLevel hlast
  rw [hformat.mpr (Int.le_refl _)] at hhandlers
  exact ⟨⟨hafter, hdebug, heffect after 10 hafter hdebug⟩, hlast, hlevel, hhandlers⟩

/-- A digit that is not decimal keeps the logger from being set up, and the level zero does not hold
under either of its spellings. -/
theorem not_takesEffect_superscript_zero :
    ¬ TakesEffect (some "²") ∧ ¬ TakesEffect (some "0") ∧ ¬ TakesEffect (some "NOTSET") := by
  refine ⟨fun h => ?_, fun h => ?_, fun h => ?_⟩
  · have hdigits : (tidied "²").all isDigit = true := by decide +kernel
    have hrefuses : Refuses (tidied "²") (.notDecimal (tidied "²")) :=
      .notDecimal hdigits (by decide +kernel) (by decide +kernel)
    exact (takesEffect_iff.mp h).2 _ ⟨"²", rfl, hrefuses⟩
  · have hdecimal : (tidied "0").all (fun c => (decimalValue? c).isSome) = true := by
      decide +kernel
    have hzero : Denotes (tidied "0") 0 :=
      .number (by decide +kernel) (List.all_eq_true.mp hdecimal)
    exact (takesEffect_iff.mp h).1 ⟨"0", rfl, hzero⟩
  · have hzero : Denotes (tidied "NOTSET") 0 := .name (by decide +kernel)
    exact (takesEffect_iff.mp h).1 ⟨"NOTSET", rfl, hzero⟩

end ResourceLiterals.Log
