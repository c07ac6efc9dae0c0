import HubConsole.Launch.Start
import HubConsole.Proofs.Run
import HubConsole.Proofs.Saved

/-! # A run without a terminal keeps the settings

The store at the end of a run without a terminal is the one that was loaded (`store_start`). So the
settings file amounts to the same settings as before, and from the first such run on it does not
change any more (`unattended_keeps`). -/

namespace HubConsole.Launch
open Setting Store

variable {o : Options} {w : Surroundings} {path : String} {es : List Entry} {args : List String}

/-- With a home directory there is a settings file. -/
theorem settingsFile_of_home (o : Options) (home : String) :
    ∃ path, settingsFile o (some home) = .ok path := by
  unfold settingsFile
  split
  · exact ⟨_, rfl⟩
  · exact ⟨_, rfl⟩
  · next h => cases h

theorem beginning_of_load (file : settingsFile o w.home = .ok path)
    (loads : w.content.load path = .ok es) : beginning o w = (es, "") := by
  unfold beginning
  rw [file]
  dsimp only
  rw [loads]

theorem start_eq (o : Options) (w : Surroundings) :
    let s := Session.new (.ofEntries (w.home.getD "/") (beginning o w).1) .offline
    (start o w).2 = { (if o.autoconnects then s.autoconnect else s) with log := [] } := rfl

theorem store_start (o : Options) (w : Surroundings) :
    (start o w).2.store = .ofEntries (w.home.getD "/") (beginning o w).1 := by
  rw [start_eq]
  cases o.autoconnects with
  | true => exact Session.store_autoconnect
  | false => rfl

/-- What a run without a terminal writes are the values that it has loaded. -/
theorem unattended_of_load (file : settingsFile o w.home = .ok path)
    (loads : w.content.load path = .ok es) :
    (unattended o w).2 = writeDocument (ofEntries (w.home.getD "/") es).entries := by
  change writeDocument (start o w).2.store.entries = _
  rw [store_start, beginning_of_load file loads]

/-- What a run with these arguments and without a terminal saves in the settings file, if the
arguments do not ask for anything else. -/
def leaves? (args : List String) (w : Surroundings) : Option String :=
  match task args with
  | .run o => some (unattended o w).2
  | _ => none

theorem leaves?_of_run (runs : task args = .run o) : leaves? args w = some (unattended o w).2 := by
  rw [leaves?, runs]

/-- A run without a terminal that can load the settings saves what they amount to. The same run
with what has been saved saves just that. -/
theorem unattended_keeps (runs : task args = .run o) (file : settingsFile o w.home = .ok path)
    (loads : w.content.load path = .ok es) :
    ∃ kept, leaves? args w = some kept ∧
      (∃ fs, Content.load path (.bytes kept.toUTF8) = .ok fs ∧
        ofEntries (w.home.getD "/") fs = ofEntries (w.home.getD "/") es) ∧
      ∀ fault now, leaves? args ⟨w.home, .bytes kept.toUTF8, fault, now⟩ = some kept := by
  have hsame : ofEntries (w.home.getD "/") (ofEntries (w.home.getD "/") es).entries =
      ofEntries (w.home.getD "/") es := by
    have hsaved := ofEntries_entries (ofEntries (w.home.getD "/") es)
    rwa [home_ofEntries] at hsaved
  refine ⟨_, leaves?_of_run runs, ?_⟩
  rw [unattended_of_load file loads]
  refine ⟨⟨_, load_writeDocument path _, hsame⟩, fun fault now => ?_⟩
  let again : Surroundings := ⟨w.home, .bytes (writeDocument
    (ofEntries (w.home.getD "/") es).entries).toUTF8, fault, now⟩
  have hagain := unattended_of_load (w := again) file (load_writeDocument path _)
  rw [leaves?_of_run runs, hagain, hsame]

/-- With a broken address, an unknown setting and a nick that is given twice. -/
theorem unattended_keeps_repeated :
    let text := "[[[2,\"hubname\",\"a\"],[2,\"hubaddr\",\"a b\"],[2,\"autoconnect\",\"true\"]," ++
      "[0,\"nick\",\"x\"],[0,\"colour\",\"\"],[0,\"nick\",\"y\"]]]"
    let w : Surroundings := ⟨none, .bytes text.toUTF8, none, .ofTimestamp 0 0⟩
    let t := ofEntries "/" [⟨0, "colour", ""⟩, ⟨0, "nick", "y"⟩, ⟨2, "autoconnect", "true"⟩,
      ⟨2, "hubaddr", "a b"⟩, ⟨2, "hubname", "a"⟩]
    task ["--config", "s.json"] = .run ⟨some "s.json", none, true⟩ ∧
      ∃ kept, leaves? ["--config", "s.json"] w = some kept ∧
        (Content.load "s.json" (.bytes kept.toUTF8)).map (ofEntries "/") = .ok t ∧
        ∀ fault now, leaves? ["--config", "s.json"] ⟨none, .bytes kept.toUTF8, fault, now⟩ =
          some kept := by
  intro text w t
  have hruns : task ["--config", "s.json"] = .run ⟨some "s.json", none, true⟩ := by
    decide +kernel
  have hread : readDocument? text = some [⟨2, "hubname", "a"⟩, ⟨2, "hubaddr", "a b"⟩,
      ⟨2, "autoconnect", "true"⟩, ⟨0, "nick", "x"⟩, ⟨0, "colour", ""⟩, ⟨0, "nick", "y"⟩] := by
    decide +kernel
  have hload := load_toUTF8 "s.json" hread
  obtain ⟨kept, hkept, ⟨fs, hfs, hsame⟩, hagain⟩ := unattended_keeps (w := w) hruns rfl hload
  refine ⟨hruns, kept, hkept, ?_, hagain⟩
  rw [hfs]
  exact congrArg Except.ok (hsame.trans rfl)

end HubConsole.Launch
