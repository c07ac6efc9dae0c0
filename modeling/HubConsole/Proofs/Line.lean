import HubConsole.Command.Basic
import HubConsole.Proofs.Trim

/-! # The explicit form of a line

A line that is not blank is read like its explicit form, which is a slash, its name, a space and its
arguments (`Line.Proper.parse?_explicit`). That is so because reading leaves nothing in a line that
reading once more would change (`proper_of_parse?`): the name has no space, although it may have
other blanks, and the arguments are trimmed, but for those of `say`. -/

namespace HubConsole
open Text

namespace Text
variable {cs : List Char}

theorem trimStart_eq_nil_iff : trimStart cs = [] ↔ ∀ c ∈ cs, isBlank c = true :=
  List.dropWhile_eq_nil_iff

/-- The first character that is not blank stands where the trimmed text starts. -/
theorem head?_trimStart_eq (cs : List Char) :
    (trimStart cs).head? = cs.find? fun c => !isBlank c := by
  simp [trimStart, List.find?_eq_head?_dropWhile_not]

end Text

theorem Command.ofName?_eq_some_iff {c : Command} {name : String} :
    ofName? name = some c ↔ c.name = name := by
  constructor
  · intro h
    simpa using List.find?_some h
  · rintro rfl
    exact ofName?_name c

/-- No two commands have the same name. -/
theorem Command.name_inj {c d : Command} : c.name = d.name ↔ c = d := by
  rw [← ofName?_eq_some_iff, ofName?_name, Option.some.injEq, eq_comm]

/-- A line that names a command runs it. -/
theorem Session.dispatch_of_parse? {s : Session} {c : Command} {line args : String}
    (h : Command.Line.parse? line = some ⟨c.name, args⟩) :
    s.dispatch line = s.settle (c.run s args) := by
  unfold dispatch call
  simp only [h, Command.ofName?_name]

namespace Command.Line
variable {l : Line} {line name args : String}

/-! ## What reading leaves -/

/-- Nothing in the line changes when it is made of its name and its arguments once more. -/
structure Proper (l : Line) : Prop where
  space_not_mem : ' ' ∉ l.name.toList
  make_eq : make l.name.toList l.args.toList = l

theorem space_not_mem_splitName (cs : List Char) : ' ' ∉ (splitName cs).1 := by
  unfold splitName
  cases h : cutFirst? ' ' cs with
  | none => exact cutFirst?_eq_none_iff.1 h
  | some p => exact not_mem_of_cutFirst? h

theorem proper_make {name : List Char} (h : ' ' ∉ name) (args : List Char) :
    (make name args).Proper := by
  refine ⟨by simpa [make] using h, ?_⟩
  unfold make
  dsimp only
  split <;> simp_all

/-- The text of a chat message is not trimmed. -/
theorem proper_chat (text : String) : Proper ⟨chatName, text⟩ :=
  ⟨(by decide : ' ' ∉ chatName.toList), by simp [make]⟩

theorem proper_of_parse? (h : parse? line = some l) : l.Proper := by
  unfold parse? at h
  split at h
  · cases h
  · next rest _ =>
    obtain rfl := Option.some.inj h
    exact proper_make (space_not_mem_splitName rest) _
  · obtain rfl := Option.some.inj h
    exact proper_chat line

theorem Proper.trim_args (h : l.Proper) (hname : l.name ≠ chatName) :
    trim l.args.toList = l.args.toList := by
  have hargs := congrArg (fun l => l.args.toList) h.make_eq
  simpa [make, hname] using hargs

/-! ## Reading explicit lines -/

theorem splitName_append {name args : List Char} (h : ' ' ∉ name) :
    splitName (name ++ ' ' :: args) = (name, args) := by
  rw [splitName, cutFirst?_append h, Option.getD_some]

theorem toList_named (name args : String) : ("/" ++ name ++ " " ++ args).toList =
    '/' :: (name.toList ++ ' ' :: args.toList) := by simp

theorem parse?_named (h : ' ' ∉ name.toList) (args : String) :
    parse? ("/" ++ name ++ " " ++ args) = some (make name.toList args.toList) := by
  have htrim : trimStart ('/' :: (name.toList ++ ' ' :: args.toList)) =
      '/' :: (name.toList ++ ' ' :: args.toList) :=
    trimStart_eq_self (by rintro _ ⟨⟩; decide)
  unfold parse?
  rw [toList_named, htrim]
  show some (make _ _) = _
  rw [splitName_append h]

theorem Proper.parse?_explicit (h : l.Proper) :
    parse? ("/" ++ l.name ++ " " ++ l.args) = some l := by
  rw [parse?_named h.space_not_mem, h.make_eq]

theorem parse?_eq_none_iff : parse? line = none ↔ ∀ c ∈ line.toList, isBlank c = true := by
  rw [← trimStart_eq_nil_iff]
  unfold parse?
  split <;> simp_all

theorem parse?_chat {c : Char} (h : (trimStart line.toList).head? = some c) (hc : c ≠ '/') :
    parse? line = some ⟨chatName, line⟩ := by
  obtain ⟨rest, hrest⟩ := List.head?_eq_some_iff.1 h
  rw [parse?, hrest]
  split <;> simp_all

/-- Each line that is not blank has a name without spaces and arguments, and is the same, when read
and when dispatched, as a slash, the name, a space and the arguments. The name is `say` and the
arguments are the whole line if the first character that is not blank is no slash; after `/say` and
a space all is kept as it stands, and for other names the arguments are trimmed. -/
theorem reads_as_explicit (line : String) :
    (parse? line = none ↔ ∀ c ∈ line.toList, isBlank c = true) ∧
    (∀ name args, parse? line = some ⟨name, args⟩ →
      ' ' ∉ name.toList ∧
      parse? ("/" ++ name ++ " " ++ args) = some ⟨name, args⟩ ∧
      (∀ s : Session, s.dispatch ("/" ++ name ++ " " ++ args) = s.dispatch line) ∧
      (name ≠ "say" → (∀ c ∈ args.toList.head?, isBlank c = false) ∧
        ∀ c ∈ args.toList.getLast?, isBlank c = false)) ∧
    (∀ c, (line.toList.find? fun c => !isBlank c) = some c → c ≠ '/' →
      parse? line = some ⟨"say", line⟩) ∧
    parse? ("/say " ++ line) = some ⟨"say", line⟩ := by
  refine ⟨parse?_eq_none_iff, fun name args h => ?_, fun c hc hslash => ?_, ?_⟩
  · have hproper := proper_of_parse? h
    have hexplicit : parse? ("/" ++ name ++ " " ++ args) = some ⟨name, args⟩ :=
      hproper.parse?_explicit
    refine ⟨hproper.space_not_mem, hexplicit, fun s => ?_, fun hname => ?_⟩
    · rw [Session.dispatch, Session.dispatch, hexplicit, h]
    · exact trim_eq_self_iff.1 (hproper.trim_args hname)
  · rw [← head?_trimStart_eq] at hc
    exact parse?_chat hc hslash
  · exact (proper_chat line).parse?_explicit

/-- Blanks other than the space are part of a name. -/
example : parse? " /me\t  waves " = some ⟨"me\t", "waves"⟩ := by decide

end Command.Line
end HubConsole
