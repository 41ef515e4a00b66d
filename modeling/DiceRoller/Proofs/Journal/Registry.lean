import DiceRoller.Journal.Registry
import Mathlib.Data.List.Nodup
import Mathlib.Data.List.Perm.Subperm

/-!
# Registries in use

A registry is `Sound` while its loggers bear different names, are different loggers and have one
handler each. A call keeps it so, sets the level of one logger and leaves the loggers of all other
names as they are. So no run of calls stacks handlers or mistakes one logger for another
(`serve_after_calls`).
-/

namespace DiceRoller

namespace Level

/-- The text names the level in some letter case, or it names none and the level is a warning. -/
structure MeantBy (text : String) (level : Level) : Prop where
  named : ∀ other : Level, other.name.toList = text.toList.map capital → level = other
  unnamed : (∀ other : Level, other.name.toList ≠ text.toList.map capital) → level = .warning

theorem mem_all (level : Level) : level ∈ all := by
  cases level <;> decide

theorem name_injective {a b : Level} (h : a.name = b.name) : a = b := by
  rw [← ofName_name a, ← ofName_name b, h]

theorem meantBy_ofName (text : String) : (ofName text).MeantBy text := by
  unfold ofName
  cases found : all.find? fun level => level.name.toList == text.toList.map capital with
  | none =>
    have absent (level : Level) : level.name.toList ≠ text.toList.map capital := by
      have differs := List.find?_eq_none.mp found level level.mem_all
      exact fun same => differs (beq_iff_eq.mpr same)
    exact ⟨fun other same => absurd same (absent other), fun _ => rfl⟩
  | some level =>
    have same : level.name.toList = text.toList.map capital := by
      simpa using List.find?_some found
    refine ⟨fun other hother => ?_, fun absent => absurd same (absent level)⟩
    exact name_injective (String.toList_inj.mp (same.trans hother.symm))

end Level

namespace Registry

/-- A call for a logger. Where it names no level, it takes the one that the settings name then. -/
structure Call where
  name : String
  level : Option String
  preset : String
  deriving DecidableEq, Repr

/-- The text that the call takes its level from. -/
def Call.levelText (call : Call) : String := call.level.getD call.preset

def serve (registry : Registry) (call : Call) : Registry × Logger :=
  registry.obtain call.preset call.name call.level

/-- What a run of calls leaves of a registry. -/
def serveAll (registry : Registry) (calls : List Call) : Registry :=
  calls.foldl (fun registry call => (registry.serve call).1) registry

theorem serveAll_append (registry : Registry) (calls later : List Call) :
    registry.serveAll (calls ++ later) = (registry.serveAll calls).serveAll later :=
  List.foldl_append

theorem canonicalName_of_ne_root {name : String} (h : name ≠ "root") : canonicalName name = name :=
  if_neg h

theorem canonicalName_ne {name other : String} (filled : name ≠ "") (notRoot : name ≠ "root")
    (h : other ≠ name) : canonicalName other ≠ canonicalName name := by
  rw [canonicalName_of_ne_root notRoot]
  by_cases root : other = "root"
  · rw [canonicalName, if_pos root]
    exact filled.symm
  · rwa [canonicalName_of_ne_root root]

section Putting

variable {registry : Registry} {name other : String} {logger : Logger}

theorem find?_put_self : (registry.put name logger).find? name = some logger :=
  List.lookup_cons_self

theorem lookup_filter_ne {entries : List (String × Logger)} {key key' : String} (h : key' ≠ key) :
    (entries.filter (·.1 != key)).lookup key' = entries.lookup key' := by
  induction entries with
  | nil => rfl
  | cons entry entries ih =>
    obtain ⟨first, logger⟩ := entry
    by_cases taken : first = key
    · have passed : (key' == first) = false := beq_false_of_ne (taken ▸ h)
      rw [List.filter_cons_of_neg (by simp [taken]), ih, List.lookup_cons, passed]
    · rw [List.filter_cons_of_pos (by simp [taken]), List.lookup_cons, List.lookup_cons, ih]

theorem find?_put_of_ne (h : canonicalName other ≠ canonicalName name) :
    (registry.put name logger).find? other = registry.find? other := by
  rw [find?, put, List.lookup_cons, beq_false_of_ne h]
  exact lookup_filter_ne h

theorem mem_of_find? (h : registry.find? name = some logger) :
    (canonicalName name, logger) ∈ registry.entries := by
  obtain ⟨front, back, split, -⟩ := List.lookup_eq_some_iff.mp h
  rw [split]
  exact List.mem_append_right front List.mem_cons_self

theorem ne_of_find?_eq_none (h : registry.find? name = none) :
    ∀ entry ∈ registry.entries, entry.1 ≠ canonicalName name := by
  intro entry mem same
  have differs := List.lookup_eq_none_iff.mp h entry mem
  simp [same] at differs

end Putting

/-- The loggers bear different names and are different loggers, and each has one handler. -/
structure Sound (registry : Registry) : Prop where
  names : (registry.entries.map (·.1)).Nodup
  serials : (registry.entries.map (·.2.serial)).Nodup
  serial_lt : ∀ entry ∈ registry.entries, entry.2.serial < registry.size
  handlers : ∀ entry ∈ registry.entries, entry.2.handlers = 1

theorem sound_empty : Sound {} := ⟨.nil, .nil, nofun, nofun⟩

theorem current_eq_of_find? {registry : Registry} {name : String} {logger : Logger}
    (h : registry.find? name = some logger) : registry.current name = logger := by
  rw [current, h, Option.getD_some]

theorem current_eq_of_none {registry : Registry} {name : String}
    (h : registry.find? name = none) :
    registry.current name = ⟨registry.size, .warning, 0⟩ := by
  rw [current, h, Option.getD_none]

theorem handlers_setUp (level : Level) {logger : Logger} (h : logger.handlers ≤ 1) :
    (setUp level logger).handlers = 1 := by
  unfold setUp
  split
  · rfl
  · dsimp only
    omega

section Serving

variable {registry : Registry} (sound : registry.Sound)

include sound

theorem Sound.handlers_current (name : String) : (registry.current name).handlers ≤ 1 := by
  cases known : registry.find? name with
  | none => simp [current_eq_of_none known]
  | some logger =>
    rw [current_eq_of_find? known]
    exact Nat.le_of_eq (sound.handlers _ (mem_of_find? known))

/-- The names of the registry are among those with one put in, so that it does not get smaller. -/
theorem Sound.names_subperm (name : String) (logger : Logger) :
    (registry.entries.map (·.1)).Subperm ((registry.put name logger).entries.map (·.1)) := by
  apply List.subperm_of_subset sound.names
  intro key hkey
  obtain ⟨entry, mem, rfl⟩ := List.mem_map.mp hkey
  by_cases taken : entry.1 = canonicalName name
  · rw [taken]
    exact List.mem_cons_self
  · exact List.mem_cons_of_mem _
      (List.mem_map_of_mem (List.mem_filter.mpr ⟨mem, by simpa using taken⟩))

theorem Sound.size_le (name : String) (logger : Logger) :
    registry.size ≤ (registry.put name logger).size := by
  have names := (sound.names_subperm name logger).length_le
  rwa [List.length_map, List.length_map] at names

/-- The logger of a name is not mistaken for that of another. -/
theorem Sound.serial_current_ne {name : String} {entry : String × Logger}
    (mem : entry ∈ registry.entries) (other : entry.1 ≠ canonicalName name) :
    (registry.current name).serial ≠ entry.2.serial := by
  cases known : registry.find? name with
  | none =>
    rw [current_eq_of_none known]
    exact Nat.ne_of_gt (sound.serial_lt entry mem)
  | some logger =>
    rw [current_eq_of_find? known]
    intro same
    have entries := List.inj_on_of_nodup_map sound.serials (mem_of_find? known) mem same
    exact other (congrArg Prod.fst entries).symm

theorem Sound.serial_current_lt (name : String) (logger : Logger) :
    (registry.current name).serial < (registry.put name logger).size := by
  cases known : registry.find? name with
  | some found =>
    rw [current_eq_of_find? known]
    exact Nat.lt_of_lt_of_le (sound.serial_lt _ (mem_of_find? known)) (sound.size_le name logger)
  | none =>
    have all : registry.entries.filter (·.1 != canonicalName name) = registry.entries := by
      apply List.filter_eq_self.mpr
      intro entry mem
      simpa using ne_of_find?_eq_none known entry mem
    rw [current_eq_of_none known, put, all]
    exact Nat.lt_succ_self _

theorem Sound.put_setUp (name : String) (level : Level) :
    (registry.put name (setUp level (registry.current name))).Sound := by
  have kept {entry : String × Logger}
      (h : entry ∈ registry.entries.filter (·.1 != canonicalName name)) :
      entry ∈ registry.entries ∧ entry.1 ≠ canonicalName name := by
    simpa using h
  refine ⟨?_, ?_, ?_, ?_⟩
  · refine List.nodup_cons.mpr ⟨?_, sound.names.sublist (List.filter_sublist.map _)⟩
    intro mem
    obtain ⟨entry, hentry, same⟩ := List.mem_map.mp mem
    exact (kept hentry).2 same
  · refine List.nodup_cons.mpr ⟨?_, sound.serials.sublist (List.filter_sublist.map _)⟩
    intro mem
    obtain ⟨entry, hentry, same⟩ := List.mem_map.mp mem
    exact sound.serial_current_ne (kept hentry).1 (kept hentry).2 same.symm
  · intro entry mem
    rcases List.mem_cons.mp mem with rfl | mem
    · exact sound.serial_current_lt name _
    · exact Nat.lt_of_lt_of_le (sound.serial_lt entry (kept mem).1) (sound.size_le name _)
  · intro entry mem
    rcases List.mem_cons.mp mem with rfl | mem
    · exact handlers_setUp level (sound.handlers_current name)
    · exact sound.handlers entry (kept mem).1

end Serving

section Calls

variable (registry : Registry) (call : Call)

theorem serve_eq : registry.serve call =
    let logger := setUp (.ofName call.levelText) (registry.current call.name)
    (registry.put call.name logger, logger) := rfl

theorem find?_serve_self : (registry.serve call).1.find? call.name = some (registry.serve call).2 :=
  find?_put_self

theorem find?_serve_of_ne {other : String} (h : canonicalName other ≠ canonicalName call.name) :
    (registry.serve call).1.find? other = registry.find? other :=
  find?_put_of_ne h

/-- The logger that is handed out is the one that the registry has of the name. -/
theorem serial_serve {logger : Logger} (h : registry.find? call.name = some logger) :
    (registry.serve call).2.serial = logger.serial := by
  rw [serve_eq, current_eq_of_find? h]
  rfl

theorem level_serve : (registry.serve call).2.level.MeantBy call.levelText :=
  Level.meantBy_ofName call.levelText

end Calls

theorem Sound.serve {registry : Registry} (sound : registry.Sound) (call : Call) :
    (registry.serve call).1.Sound :=
  sound.put_setUp call.name _

theorem sound_serveAll {registry : Registry} (sound : registry.Sound) (calls : List Call) :
    (registry.serveAll calls).Sound := by
  induction calls generalizing registry with
  | nil => exact sound
  | cons call calls ih => exact ih (sound.serve call)

/-- Once there is a logger of the name it stays the logger of the name, whatever is called for. -/
theorem exists_find?_serveAll {registry : Registry} {name : String} {logger : Logger}
    (h : registry.find? name = some logger) (calls : List Call) :
    ∃ later, (registry.serveAll calls).find? name = some later ∧
      later.serial = logger.serial := by
  induction calls generalizing registry logger with
  | nil => exact ⟨logger, h, rfl⟩
  | cons call calls ih =>
    by_cases called : canonicalName name = canonicalName call.name
    · have known : registry.find? call.name = some logger := by rwa [find?, ← called]
      have served : (registry.serve call).1.find? name = some (registry.serve call).2 := by
        rw [find?, called]
        exact registry.find?_serve_self call
      obtain ⟨later, found, serial⟩ := ih served
      exact ⟨later, found, serial.trans (registry.serial_serve call known)⟩
    · exact ih ((registry.find?_serve_of_ne call called).trans h)

/-- Two calls for one name with any calls between them are given the same logger. -/
theorem serial_serve_again (registry : Registry) {first call : Call} (between : List Call)
    (same : first.name = call.name) :
    (((registry.serve first).1.serveAll between).serve call).2.serial =
      (registry.serve first).2.serial := by
  obtain ⟨kept, found, serial⟩ :=
    exists_find?_serveAll (registry.find?_serve_self first) between
  rw [serial_serve _ call (same ▸ found), serial]

/-- After any calls, a call hands out the logger that its name has from then on, which is the one
that every earlier call for the name was given and that of no other name. It has one handler, and
its level is the one that this call means. What the registry has of other names stays as it is. -/
theorem serve_after_calls (calls : List Call) (call : Call) (filled : call.name ≠ "")
    (notRoot : call.name ≠ "root") :
    let before := serveAll {} calls
    let after := (before.serve call).1
    let logger := (before.serve call).2
    after.find? call.name = some logger ∧
    logger.handlers = 1 ∧
    logger.level.MeantBy (call.level.getD call.preset) ∧
    (∀ earlier first between, calls = earlier ++ first :: between → first.name = call.name →
      ((serveAll {} earlier).serve first).2.serial = logger.serial) ∧
    ∀ other, other ≠ call.name → after.find? other = before.find? other ∧
      ∀ another, after.find? other = some another →
        another.serial ≠ logger.serial ∧ another.handlers = 1 := by
  intro before after logger
  have sound : before.Sound := sound_serveAll sound_empty calls
  have found : after.find? call.name = some logger := before.find?_serve_self call
  have handlers {name : String} {logger : Logger} (h : after.find? name = some logger) :
      logger.handlers = 1 :=
    (sound.serve call).handlers _ (mem_of_find? h)
  refine ⟨found, handlers found, before.level_serve call, ?_, ?_⟩
  · rintro earlier first between rfl same
    have split : before = ((serveAll {} earlier).serve first).1.serveAll between :=
      serveAll_append {} earlier (first :: between)
    rw [← serial_serve_again (serveAll {} earlier) between same, ← split]
  · intro other ne
    have names := canonicalName_ne filled notRoot ne
    have kept := before.find?_serve_of_ne call names
    refine ⟨kept, fun another hanother => ⟨?_, handlers hanother⟩⟩
    exact (sound.serial_current_ne (mem_of_find? (kept.symm.trans hanother)) names).symm

theorem serve_after_calls_for_parent_and_child :
    let first : Call := ⟨"app.dice", some "debug", "WARNING"⟩
    let parent : Call := ⟨"app", none, "Info"⟩
    let again : Call := ⟨"app.dice", some "loud", "WARNING"⟩
    let call : Call := ⟨"app.dice", some "cr\u0131tical", "WARNING"⟩
    let before := serveAll {} [first, parent, again]
    let logger := (before.serve call).2
    call.name ≠ "" ∧ call.name ≠ "root" ∧
      logger.serial = (({} : Registry).serve first).2.serial ∧ logger.level = .critical ∧
      logger.handlers = 1 ∧ before.find? "app.dice" = some ⟨0, .warning, 1⟩ ∧
      (before.serve call).1.find? "app" = some ⟨1, .info, 1⟩ := by
  intro first parent again call before logger
  have filled : call.name ≠ "" := by decide
  have notRoot : call.name ≠ "root" := by decide
  obtain ⟨-, handlers, level, same, others⟩ :=
    serve_after_calls [first, parent, again] call filled notRoot
  have known : before.find? "app" = some ⟨1, .info, 1⟩ := by decide +kernel
  exact ⟨filled, notRoot, (same [] first _ rfl rfl).symm, level.named .critical (by decide),
    handlers, by decide +kernel, (others "app" (by decide)).1.trans known⟩

end Registry

end DiceRoller
