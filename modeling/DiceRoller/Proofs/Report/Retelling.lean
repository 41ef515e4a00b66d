import DiceRoller.Proofs.Report.Answering
import DiceRoller.Proofs.Request.Rendering
import DiceRoller.Proofs.Request.Shares

/-!
# The same told twice

The text of an answer has a line for each of its groups, and the line can be put together from
what the group reports (`answer_retold`). This takes that nothing told of a request contains a
line break, whatever characters the request has: its labels are cut from its lines, and its
expressions and faults keep to their lines as well.
-/

namespace DiceRoller

/-- Steps that differ in what is made of their values differ so over a list. -/
theorem mapM_eq_map {m : Type → Type} [Monad m] [LawfulMonad m] {α β γ : Type} {f : α → m β}
    {g : α → m γ} {k : β → γ} {l : List α} (h : ∀ a ∈ l, g a = k <$> f a) :
    l.mapM g = List.map k <$> l.mapM f := by
  induction l with
  | nil => simp
  | cons a l ih =>
    have later := ih fun x hx => h x (List.mem_cons_of_mem a hx)
    simp [List.mapM_cons, h a List.mem_cons_self, later]

/-- What a report adds to its line. -/
def Report.entry (report : Report) : String :=
  match report.outcome with
  | .ok (_, display) => report.text ++ " -> " ++ display
  | .error message => message

/-- The line of a group as its reports have it. -/
def GroupReport.line (group : GroupReport) : String :=
  group.label.elim "" (· ++ ": ") ++ ", ".intercalate (group.reports.map Report.entry)

def Report.words (report : Report) : List String :=
  match report.outcome with
  | .ok (_, display) => [report.text, display]
  | .error message => [report.text, message]

/-- Everything that a group tells in words. -/
def GroupReport.words (group : GroupReport) : List String :=
  group.label.toList ++ group.reports.flatMap Report.words

/-- The report is about the result, and nothing in it comes from elsewhere. -/
inductive Result.ReportedAs : Result → Report → Prop
  | tally {text display : String} {tally : Tally} (shown : tally.text = .ok display) :
      ReportedAs ⟨text, .ok tally⟩ ⟨text, .ok (tally, display)⟩
  | fault {text : String} {fault : Fault} :
      ReportedAs ⟨text, .error fault⟩ ⟨text, .error fault.message⟩

structure Group.ReportedAs (group : Group) (report : GroupReport) : Prop where
  label_eq : report.label = group.label
  reports : List.Forall₂ Result.ReportedAs group.results report.reports

section Rewriting

theorem Result.entry_eq (result : Result) : result.entry = Report.entry <$> result.report := by
  unfold Result.entry Result.report Result.display
  cases result.outcome with
  | ok tally =>
    dsimp only
    cases tally.text <;> rfl
  | error fault => rfl

theorem labelPart_eq {label : Option String} (h : label ≠ some "") :
    labelPart label = label.elim "" (· ++ ": ") := by
  cases label with
  | none => rfl
  | some label =>
    have filled : label.isEmpty = false := by
      rw [String.isEmpty_eq_false_iff]
      rintro rfl
      exact h rfl
    simp [labelPart, filled]

theorem Group.text_eq {group : Group} (h : group.label ≠ some "") :
    group.text = GroupReport.line <$> group.report := by
  rw [Group.text, Group.report, mapM_eq_map fun result _ => result.entry_eq, labelPart_eq h]
  simp [GroupReport.line]

theorem groupsText_eq {groups : List Group} (h : ∀ group ∈ groups, group.label ≠ some "") :
    groupsText groups = (fun reports => "\n".intercalate (reports.map GroupReport.line)) <$>
      groups.mapM Group.report := by
  rw [groupsText, mapM_eq_map fun group hgroup => Group.text_eq (h group hgroup)]
  simp

theorem Answer.of_ofGroups {clock : Clock} {request : String} {groups : List Group}
    {answered : Answer} (labels : ∀ group ∈ groups, group.label ≠ some "")
    (h : ofGroups clock request groups = .ok answered) :
    groups.mapM Group.report = .ok answered.groups ∧
      answered.text = "\n".intercalate (answered.groups.map GroupReport.line) := by
  rw [ofGroups, groupsText_eq labels] at h
  cases made : groups.mapM Group.report with
  | error reason =>
    rw [made] at h
    cases h
  | ok reports =>
    rw [made] at h
    cases h
    exact ⟨rfl, rfl⟩

end Rewriting

section Reporting

theorem Result.yields_report (result : Result) :
    Yields result.ReportedAs (fun _ => True) result.report := by
  obtain ⟨text, outcome⟩ := result
  cases outcome with
  | error fault => exact .ok .fault
  | ok tally =>
    cases shown : tally.text with
    | error reason =>
      simp only [report, shown]
      exact .error trivial
    | ok display =>
      simp only [report, shown]
      exact .ok (.tally shown)

theorem Group.yields_report (group : Group) :
    Yields group.ReportedAs (fun _ => True) group.report :=
  (Yields.mapM fun result _ => result.yields_report).bind fun _ reports => .ok ⟨rfl, reports⟩

end Reporting

section Lines

/-- Neither the text of the result nor its fault breaks the line. -/
structure Result.KeepsLine (result : Result) : Prop where
  text : Unbroken result.text
  detail : ∀ fault, result.outcome = .error fault → Unbroken fault.detail

structure Group.KeepsLine (group : Group) : Prop where
  label_ne : group.label ≠ some ""
  label : ∀ label ∈ group.label, Unbroken label
  results : ∀ result ∈ group.results, result.KeepsLine

theorem Fault.unbroken_message {fault : Fault} (h : Unbroken fault.detail) :
    Unbroken fault.message := by
  have code : Unbroken fault.kind.code := by
    cases fault.kind <;> decide
  simp +decide [message, code, h]

theorem Result.KeepsLine.yields_words {result : Result} (h : result.KeepsLine) :
    Yields (fun report => ∀ word ∈ report.words, Unbroken word) (fun _ => True)
      result.report := by
  unfold report
  cases failed : result.outcome with
  | error fault =>
    have message := Fault.unbroken_message (h.detail fault failed)
    exact .ok (by simpa [Report.words] using ⟨h.text, message⟩)
  | ok tally =>
    apply (tally.yields_text.mono (fun _ => id) fun _ _ => trivial).bind
    intro display hdisplay
    exact .ok (by simpa [Report.words] using ⟨h.text, hdisplay⟩)

theorem Group.KeepsLine.yields_words {group : Group} (h : group.KeepsLine) :
    Yields (fun report => ∀ word ∈ report.words, Unbroken word) (fun _ => True)
      group.report := by
  apply (Yields.forall_mapM fun result hresult => (h.results result hresult).yields_words).bind
  intro reports words
  apply Yields.ok
  intro word hword
  rcases List.mem_append.mp hword with label | told
  · exact h.label word (Option.mem_toList.mp label)
  · obtain ⟨report, hreport, hword⟩ := List.mem_flatMap.mp told
    exact words report hreport word hword

theorem Report.unbroken_entry {report : Report} (h : ∀ word ∈ report.words, Unbroken word) :
    Unbroken report.entry := by
  obtain ⟨text, outcome⟩ := report
  cases outcome with
  | error message => exact h message (by simp [words])
  | ok told => simp +decide [entry, h text (by simp [words]), h told.2 (by simp [words])]

theorem GroupReport.unbroken_line {group : GroupReport}
    (h : ∀ word ∈ group.words, Unbroken word) : Unbroken group.line := by
  refine unbroken_append.mpr ⟨?_, .intercalate (by decide) ?_⟩
  · cases label : group.label with
    | none => decide
    | some text =>
      have unbroken := h text (by simp [words, label])
      simp +decide [unbroken]
  · intro entry hentry
    obtain ⟨report, hreport, rfl⟩ := List.mem_map.mp hentry
    apply report.unbroken_entry
    intro word hword
    exact h word (List.mem_append_right _ (List.mem_flatMap.mpr ⟨report, hreport, hword⟩))

end Lines

namespace Request

variable {settings : Settings} {throws : List Throw}

theorem Share.keepsLine {e : String} {result : Result} (share : Share settings e throws result)
    (h : Unbroken e) : result.KeepsLine := by
  have text := Expression.unbroken_canonical h
  cases share with
  | refused read =>
    refine ⟨text, ?_⟩
    rintro fault ⟨⟩
    exact ((Expression.yields_read settings.maxDice e).of_eq_error read).of_eq_fault rfl text
  | rolled => exact ⟨text, nofun⟩
  | overflow _ _ words =>
    refine ⟨text, ?_⟩
    rintro fault ⟨⟩
    exact (Failure.keepsLine_overflow _ _).of_eq_fault words text

theorem LineShare.keepsLine {line : Line} {group : Group}
    (share : LineShare settings line throws group) (h : line.WellFormed) : group.KeepsLine := by
  refine ⟨?_, ?_, ?_⟩
  · rw [share.label_eq]
    intro empty
    exact (h.label "" empty).ne_nil rfl
  · rw [share.label_eq]
    intro label hlabel
    exact (h.label label hlabel).free '\n' (by simp)
  · intro result hresult
    obtain ⟨shares, -, dealt⟩ := share.results
    obtain ⟨e, he, _, found⟩ := dealt.exists_of_mem hresult
    exact found.keepsLine ((h.expressions e he).free '\n' (by simp))

section Retold

variable {σ : Type} [DiceSource σ] {tray : Tray σ} {clock : Clock} {text : String}

/-- An answer comes from groups that were rolled. -/
theorem groups_of_answer {answered : Answer}
    (h : ((answer settings clock text).run tray).ending = .finished answered) :
    ∃ groups, ((roll settings text).run tray).ending = .finished groups ∧
      (∀ group ∈ groups, group.KeepsLine) ∧ Answer.ofGroups clock text groups = .ok answered := by
  obtain ⟨throws, course, given⟩ := Roll.exists_course_of_finished h
  unfold answer at course
  split at course
  · cases course
  · obtain ⟨first, later, groups, rfl, rolled, made⟩ := course.bind_ok
    -- Telling the groups asks for no more dice, so that these are all the throws.
    generalize told : Answer.ofGroups clock text groups = outcome at made
    cases made
    rw [List.append_nil] at given
    obtain ⟨journal, run⟩ := rolled.run_eq given
    obtain ⟨shares, -, dealt⟩ := lineShares_of_course rolled
    refine ⟨groups, by rw [run]; rfl, ?_, told⟩
    intro group hgroup
    obtain ⟨line, hline, share, found⟩ := dealt.exists_of_mem hgroup
    exact found.keepsLine (wellFormed_of_mem_lines hline)

/-- The groups of an answer report what was rolled, and its text has their lines, each on its
own. -/
theorem answer_retold {answered : Answer}
    (h : ((answer settings clock text).run tray).ending = .finished answered) :
    (∃ groups, ((roll settings text).run tray).ending = .finished groups ∧
      List.Forall₂ Group.ReportedAs groups answered.groups) ∧
    (answered.groups = [] → answered.text = "") ∧
    (answered.groups ≠ [] → answered.text.toList.splitOn '\n' =
      answered.groups.map fun group => group.line.toList) ∧
    ∀ group ∈ answered.groups, ∀ word ∈ group.words, Unbroken word := by
  obtain ⟨groups, rolled, keeps, made⟩ := groups_of_answer h
  obtain ⟨reports, whole⟩ :=
    Answer.of_ofGroups (fun group hgroup => (keeps group hgroup).label_ne) made
  have told := (Yields.mapM fun group _ => group.yields_report).of_eq_ok reports
  have words := (Yields.forall_mapM fun group hgroup => (keeps group hgroup).yields_words).of_eq_ok
    reports
  refine ⟨⟨groups, rolled, told⟩, ?_, ?_, words⟩
  · intro none
    rw [whole, none]
    rfl
  · intro some
    rw [whole, Unbroken.splitOn_intercalate (by simpa using some) ?_, List.map_map]
    · rfl
    · intro line hline
      obtain ⟨group, hgroup, rfl⟩ := List.mem_map.mp hline
      exact group.unbroken_line (words group hgroup)

end Retold

theorem answer_retold_in_two_lines :
    let settings : Settings := {}
    let tray : Tray Seeded := ⟨.ofSeed 5, 0⟩
    let text := "Attack: 1d20+5, 3dX\n2d6kh1"
    ∃ answered, ((answer settings ⟨0, 0⟩ text).run tray).ending = .finished answered ∧
      answered.groups.length = 2 ∧
      answered.text.toList.splitOn '\n' = answered.groups.map fun group => group.line.toList := by
  intro settings tray text
  have hdice : 1 ≤ settings.maxDice := by decide
  have filled : isBlank text = false := by decide +kernel
  have two : (lines text).length = 2 := by decide +kernel
  have moderate : Moderate settings text :=
    ⟨.of_length_le (by decide), show (100 : Int).natAbs < Numeral.root by decide +kernel⟩
  rcases (ensures_answer hdice ⟨0, 0⟩ filled).run answers_seeded tray with
    ⟨answered, told, ending⟩ | ⟨reason, excess, -⟩
  · have length : answered.groups.length = 2 := told.groups.length_eq.symm.trans two
    obtain ⟨-, -, split, -⟩ := answer_retold ending
    exact ⟨answered, ending, length, split (List.ne_nil_of_length_eq_add_one length)⟩
  · exact absurd moderate excess.not_moderate

end Request

end DiceRoller
