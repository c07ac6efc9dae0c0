import HubConsole.Proofs.Store
import HubConsole.Proofs.TimeFormat
import HubConsole.Terminal.Paint

/-! # The time before a log line

The setting `ui_time_format` takes every well-formed format, and the time before a log line is
shown as the format has it, unless a zone in any form stands in the format (`stamps_as_set`). Such a
format can only be read, and the time is shown in brackets instead, as it is for a format that is
stored and malformed. -/

namespace HubConsole

namespace Clock
open Format
variable {t : Time} {format text other : String}

/-- The text that a format shows of a time. -/
def Shown (t : Time) (format text : String) : Prop := Shows t format.toList text.toList

theorem shown_iff : Shown t format text ↔
    (items? format.toList).bind (write? t) = some text.toList := by
  rw [Shown, shows_iff, Option.bind_eq_some_iff]
  simp only [items?_eq_some_iff]

theorem exists_shown_iff : (∃ text, Shown t format text) ↔ ∃ out, Shows t format.toList out := by
  constructor
  · rintro ⟨text, h⟩
    exact ⟨_, h⟩
  · rintro ⟨out, h⟩
    exact ⟨.ofList out, by rwa [Shown, String.toList_ofList]⟩

theorem reads_bracketed : Reads "[%H:%M:%S]".toList bracketed := by
  have hH : afterPercent? ['H', ':', '%', 'M', ':', '%', 'S', ']'] =
      some ([.field .hour .zero], [':', '%', 'M', ':', '%', 'S', ']']) := rfl
  have hM : afterPercent? ['M', ':', '%', 'S', ']'] =
      some ([.field .minute .zero], [':', '%', 'S', ']']) := rfl
  have hS : afterPercent? ['S', ']'] = some ([.field .second .zero], [']']) := rfl
  have hempty : items? [] = some [] := by rw [items?]
  rw [← items?_eq_some_iff]
  show items? ['[', '%', 'H', ':', '%', 'M', ':', '%', 'S', ']'] = some bracketed
  simp [items?_char, items?_percent, hH, hM, hS, hempty, bracketed, time, shortTime]

/-- The time in brackets is shown for every time. -/
theorem shown_bracketed (t : Time) :
    Shown t "[%H:%M:%S]" (.ofList ((write? t bracketed).getD [])) := by
  obtain ⟨out, hout⟩ : ∃ out, write? t bracketed = some out := exists_write?_iff.2 (by decide)
  refine shows_iff.2 ⟨bracketed, reads_bracketed, ?_⟩
  rw [hout, String.toList_ofList, Option.getD_some]

/-- A format that shows something is used. -/
theorem stamp_of_shown (h : Shown t format text) : stamp format t = text := by
  rw [stamp, shown_iff.1 h]
  exact String.ofList_toList

/-- The time is shown in brackets by a format that shows nothing. -/
theorem shown_stamp_of_not_shown (h : ∀ text, ¬ Shown t format text) :
    Shown t "[%H:%M:%S]" (stamp format t) := by
  have hnone : (items? format.toList).bind (write? t) = none := by
    refine Option.eq_none_iff_forall_ne_some.2 fun out hout => h (.ofList out) ?_
    rw [shown_iff, String.toList_ofList, hout]
  rw [stamp, hnone]
  exact shown_bracketed t

end Clock

namespace Store
open Setting Clock Format Terminal
variable {s u : Store} {f : String} {r : Resolved}

theorem holdsChecked_timeFormat : HoldsChecked "ui_time_format" .global .timeFormat := by
  decide

theorem run_timeFormat_eq_ok_iff :
    Check.timeFormat.run f = .ok () ↔ ∃ items, Reads f.toList items := by
  rw [← isFormat_iff]
  simp only [Check.run]
  split
  · next h => simp [h]
  · next h => simp [h]

theorem exists_assign_timeFormat_iff (s : Store) :
    (∃ u r, s.assign .global "ui_time_format" f = .ok (u, r)) ↔ ∃ items, Reads f.toList items :=
  (holdsChecked_timeFormat.exists_assign_iff rfl).trans run_timeFormat_eq_ok_iff

/-- A format that is accepted is stored as it stands. -/
theorem get?_of_assign_timeFormat (h : s.assign .global "ui_time_format" f = .ok (u, r)) :
    u.get? 0 "ui_time_format" = some f := by
  obtain rfl := holdsChecked_timeFormat.eq_set_of_assign rfl h
  exact get?_set_self ..

/-- Log lines are painted with the format that is stored. -/
theorem timeFormat_ofStore (h : s.get? 0 "ui_time_format" = some f) :
    (LogStyle.ofStore s).timeFormat = f := by
  obtain ⟨d, hd, hname, htiers, hkind, -⟩ := holdsChecked_timeFormat
  have hfind : Setting.find? "ui_time_format" = some d :=
    find?_eq_some_iff.2 ⟨hname, (mem_visible_iff.1 hd).1⟩
  have hraw : s.effectiveRaw? d .global = some (f, .global) := by
    unfold effectiveRaw?
    rw [hname, htiers, h]
    rfl
  have hvalue : s.value? .global "ui_time_format" = some (.text f) := by
    unfold value?
    rw [hfind]
    simp [hraw, hkind, Kind.parse, pure, Except.pure, Except.toOption]
  unfold LogStyle.ofStore
  rw [hvalue]

/-- The setting takes a format iff it is well formed. The time before a log line is then shown as
the format has it, at any time, unless a zone in any form stands in the format, which shows nothing
at all: then, and for a malformed format that is stored all the same, the time of day is shown in
brackets. -/
theorem stamps_as_set (s : Store) (f : String) (t : Time) :
    ((∃ u r, s.assign .global "ui_time_format" f = .ok (u, r)) ↔
      ∃ items, Reads f.toList items) ∧
    (∀ u r, s.assign .global "ui_time_format" f = .ok (u, r) →
      (¬ HasAnyZone f.toList → Shown t f ((LogStyle.ofStore u).stamp t)) ∧
      (HasAnyZone f.toList → (∀ text, ¬ Shown t f text) ∧
        Shown t "[%H:%M:%S]" ((LogStyle.ofStore u).stamp t))) ∧
    ∀ e, Check.timeFormat.run f = .error e → s.get? 0 "ui_time_format" = some f →
      Shown t "[%H:%M:%S]" ((LogStyle.ofStore s).stamp t) := by
  refine ⟨exists_assign_timeFormat_iff s, fun u r h => ?_, fun e herror hget => ?_⟩
  · obtain ⟨items, hread⟩ := (exists_assign_timeFormat_iff s).1 ⟨u, r, h⟩
    have hshown := exists_shown_iff.trans (hread.exists_shows_iff t)
    rw [LogStyle.stamp, timeFormat_ofStore (get?_of_assign_timeFormat h)]
    refine ⟨fun hplain => ?_, fun hzone => ?_⟩
    · obtain ⟨text, htext⟩ := hshown.2 hplain
      rwa [stamp_of_shown htext]
    · have hnone : ∀ text, ¬ Shown t f text := fun text htext => hshown.1 ⟨text, htext⟩ hzone
      exact ⟨hnone, shown_stamp_of_not_shown hnone⟩
  · rw [LogStyle.stamp, timeFormat_ofStore hget]
    refine shown_stamp_of_not_shown fun text htext => ?_
    obtain ⟨items, hread, -⟩ := shows_iff.1 htext
    rw [run_timeFormat_eq_ok_iff.2 ⟨items, hread⟩] at herror
    cases herror

/-- It is not so that every format that is accepted is used. -/
theorem not_stamps_as_set : ¬ ∀ (s u : Store) (f : String) (r : Resolved) (t : Time),
    s.assign .global "ui_time_format" f = .ok (u, r) →
      Shown t f ((LogStyle.ofStore u).stamp t) := by
  intro h
  have hread : Reads "%#z".toList [.word .anyZone] := .specifier .anyZone .nil
  have hzone : HasAnyZone "%#z".toList := ⟨[], [], [], .nil, rfl⟩
  obtain ⟨u, r, hassign⟩ := (exists_assign_timeFormat_iff (empty "/")).2 ⟨_, hread⟩
  have hshown := h _ u _ r ⟨2024, 5, 1, 13, 4, 5, 0⟩ hassign
  exact (hread.exists_shows_iff _).1 ⟨_, hshown⟩ hzone

end Store
end HubConsole
