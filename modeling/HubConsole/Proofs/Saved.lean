import HubConsole.Proofs.ByteOrder
import HubConsole.Proofs.JsonText
import HubConsole.Proofs.Store
import HubConsole.Setting.Document

/-! # Saved values

A document of stored values reads back as it was written (`load_writeDocument`), and the values of a
store make the same store again (`ofEntries_entries`). Of the values in a document the last one for
an id and a name counts (`mem_ofEntries_iff`). -/

namespace HubConsole
open Setting

namespace Setting

variable {e : Entry} {es : List Entry} {scope : HubId} {name : String}

/-! ## Documents -/

theorem Entry.plain_toJson (e : Entry) : Json.Plain e.toJson := by
  refine .object (by simp) fun m hm => ?_
  simp only [List.mem_cons, List.not_mem_nil, or_false] at hm
  obtain rfl | rfl | rfl := hm
  · rw [Count.toList_text]
    exact .number _
  · exact .string _
  · exact .string _

theorem plain_document (es : List Entry) : Json.Plain (document es) := by
  refine .object (by simp) fun m hm => ?_
  obtain rfl := List.mem_singleton.1 hm
  refine .list fun v hv => ?_
  obtain ⟨e, -, rfl⟩ := List.mem_map.1 hv
  exact e.plain_toJson

theorem Entry.ofJson?_toJson (e : Entry) : Entry.ofJson? e.toJson = some e := by
  have hid : idOf? (.number (Count.text e.scope).toList) = some e.scope := by
    rw [Count.toList_text, idOf?, Count.ofDigits?_toDigits, Count.ofNat?_toNat]
  change entryOf? (.number (Count.text e.scope).toList) (.string (some e.name))
    (.string (some e.value)) = some e
  simp only [entryOf?, hid, textOf?, bind, pure, Option.bind_some]

theorem documentOf?_document (es : List Entry) : documentOf? (document es) = some es := by
  change (es.map Entry.toJson).mapM Entry.ofJson? = some es
  have hread : Entry.ofJson? ∘ Entry.toJson = fun e => pure (id e) :=
    funext Entry.ofJson?_toJson
  rw [List.mapM_map, hread, List.mapM_pure, List.map_id]
  rfl

theorem readDocument?_writeDocument (es : List Entry) :
    readDocument? (writeDocument es) = some es := by
  rw [readDocument?, writeDocument, Json.text, String.toList_ofList,
    Json.parse?_write (plain_document es), Option.bind_some, documentOf?_document]

theorem fromUTF8?_toUTF8 (text : String) : String.fromUTF8? text.toUTF8 = some text := by
  simp only [String.fromUTF8?, String.toUTF8_eq_toByteArray, dif_pos (String.isValidUTF8 _)]
  rfl

theorem load_toUTF8 {text : String} (path : String) (h : readDocument? text = some es) :
    Content.load path (.bytes text.toUTF8) = .ok es := by
  rw [Content.load, fromUTF8?_toUTF8]
  dsimp only
  rw [h]
  rfl

theorem load_toUTF8_of_none {text : String} (path : String) (h : readDocument? text = none) :
    Content.load path (.bytes text.toUTF8) = .error (.malformed path "not a settings document") := by
  rw [Content.load, fromUTF8?_toUTF8]
  dsimp only
  rw [h]
  rfl

/-- What is saved is loaded as it was. -/
theorem load_writeDocument (path : String) (es : List Entry) :
    Content.load path (.bytes (writeDocument es).toUTF8) = .ok es :=
  load_toUTF8 path (readDocument?_writeDocument es)

/-! ## The values of a document -/

/-- The last of the values for its id and name. -/
def IsLast (es : List Entry) (e : Entry) : Prop :=
  ∃ before after, es = before ++ e :: after ∧ ∀ f ∈ after, ¬ (f.scope = e.scope ∧ f.name = e.name)

theorem isLast_concat {f : Entry} : IsLast (es ++ [f]) e ↔
    e = f ∨ (IsLast es e ∧ ¬ (f.scope = e.scope ∧ f.name = e.name)) := by
  constructor
  · rintro ⟨before, after, heq, hlast⟩
    rcases List.eq_nil_or_concat' after with rfl | ⟨after, g, rfl⟩
    · exact .inl (List.cons.inj (List.append_inj' heq rfl).2).1.symm
    · rw [← List.cons_append, ← List.append_assoc] at heq
      obtain ⟨rfl, hg⟩ := List.append_inj' heq rfl
      obtain rfl := (List.cons.inj hg).1
      exact .inr ⟨⟨before, after, rfl, fun h hh => hlast h (List.mem_append_left _ hh)⟩,
        hlast f (by simp)⟩
  · rintro (rfl | ⟨⟨before, after, rfl, hlast⟩, hne⟩)
    · exact ⟨es, [], rfl, by simp⟩
    · refine ⟨before, after ++ [f], by simp, fun g hg => ?_⟩
      rcases List.mem_append.1 hg with hg | hg
      · exact hlast g hg
      · exact List.mem_singleton.1 hg ▸ hne

end Setting

namespace Store

variable {home : String} {e : Entry} {es : List Entry}

theorem ofEntries_concat (home : String) (es : List Entry) (e : Entry) :
    ofEntries home (es ++ [e]) = (ofEntries home es).set e.scope e.name e.value :=
  List.foldl_concat ..

@[simp] theorem home_ofEntries (home : String) (es : List Entry) :
    (ofEntries home es).home = home := by
  induction es using List.reverseRecOn with
  | nil => rfl
  | append_singleton es e ih => rw [ofEntries_concat, home_set, ih]

/-- Of the values for an id and a name the last one counts. -/
theorem mem_ofEntries_iff : e ∈ (ofEntries home es).entries ↔ IsLast es e := by
  induction es using List.reverseRecOn with
  | nil =>
    constructor
    · intro h
      cases h
    · rintro ⟨before, after, h, -⟩
      exact absurd h.symm (by simp)
  | append_singleton es f ih =>
    rw [isLast_concat, ← ih, ofEntries_concat, mem_entries_iff, get?_set, mem_entries_iff]
    split
    · next hat =>
      obtain ⟨hscope, hname⟩ := hat
      simp only [Option.some.injEq, hscope, hname, and_self, not_true_eq_false, and_false, or_false]
      constructor
      · intro hvalue
        cases e; cases f
        simp_all
      · rintro rfl
        rfl
    · next hat =>
      have hne : e ≠ f := by
        rintro rfl
        exact hat ⟨rfl, rfl⟩
      simp [hne, hat]

/-- A value that comes after all others is put at the end. -/
theorem insertEntry_eq_concat (h : ∀ f ∈ es, Entry.Before f e) :
    insertEntry e es = es ++ [e] := by
  induction es with
  | nil => rfl
  | cons f fs ih =>
    have hfe : Entry.Before f e := h f List.mem_cons_self
    have hef : ¬ Entry.Before e f := fun hef => by
      have := (hef.trans hfe).ne
      simp [Entry.isAt] at this
    rw [insertEntry, if_neg (by simp [hfe.ne]), if_neg hef,
      ih fun g hg => h g (List.mem_cons_of_mem _ hg), List.cons_append]

theorem entries_ofEntries (h : Sorted es) : (ofEntries home es).entries = es := by
  induction es using List.reverseRecOn with
  | nil => rfl
  | append_singleton es e ih =>
    obtain ⟨hes, -, hlast⟩ := List.pairwise_append.1 h
    rw [ofEntries_concat]
    change insertEntry e (ofEntries home es).entries = es ++ [e]
    rw [ih hes]
    exact insertEntry_eq_concat fun f hf => hlast f hf e List.mem_cons_self

/-- The values of a store make the same store again. -/
@[simp] theorem ofEntries_entries (s : Store) : ofEntries s.home s.entries = s := by
  obtain ⟨home, es, hsorted⟩ := s
  have hhome := home_ofEntries home es
  have hentries : (ofEntries home es).entries = es := entries_ofEntries hsorted
  cases h : ofEntries home es
  simp_all

/-- Entries are in the order of their scopes and then of the bytes of their names. -/
theorem pairwise_bytes (s : Store) : s.entries.Pairwise fun a b =>
    a.scope < b.scope ∨ (a.scope = b.scope ∧ Text.utf8 a.name < Text.utf8 b.name) :=
  s.sorted.imp fun h => h.imp id fun ⟨hscope, hname⟩ => ⟨hscope, Text.utf8_lt_iff.2 hname⟩

theorem nodup_keys (s : Store) : (s.entries.map fun e => (e.scope, e.name)).Nodup := by
  rw [List.Nodup, List.pairwise_map]
  refine s.sorted.imp fun {a b} h heq => ?_
  have hne := h.ne
  simp [Entry.isAt, (Prod.mk.inj heq).1, (Prod.mk.inj heq).2] at hne

/-- The values of a document, in whatever order and however often repeated, are loaded as they are.
A store that is saved and loaded again is the same. A store that is loaded has the last of the values
for each id and name, in the order of the ids and of the bytes of the names. -/
theorem loads_as_saved (path : String) :
    (∀ es, Content.load path (.bytes (writeDocument es).toUTF8) = .ok es) ∧
    (∀ s : Store, (Content.load path (.bytes (writeDocument s.entries).toUTF8)).map
      (ofEntries s.home) = .ok s) ∧
    ∀ (home : String) (content : Content) (t : Store),
      (content.load path).map (ofEntries home) = .ok t →
        (Content.load path (.bytes (writeDocument t.entries).toUTF8)).map (ofEntries home) = .ok t ∧
        (∃ es, content.load path = .ok es ∧ ∀ e, e ∈ t.entries ↔ IsLast es e) ∧
        (t.entries.map fun e => (e.scope, e.name)).Nodup ∧
        t.entries.Pairwise fun a b =>
          a.scope < b.scope ∨ (a.scope = b.scope ∧ Text.utf8 a.name < Text.utf8 b.name) := by
  have hsaved : ∀ s : Store, (Content.load path (.bytes (writeDocument s.entries).toUTF8)).map
      (ofEntries s.home) = .ok s := by
    intro s
    rw [load_writeDocument, Except.map, ofEntries_entries]
  refine ⟨load_writeDocument path, hsaved, fun home content t h => ?_⟩
  cases hload : content.load path with
  | error e =>
    rw [hload] at h
    cases h
  | ok es =>
    rw [hload] at h
    obtain rfl : ofEntries home es = t := Except.ok.inj h
    refine ⟨?_, ⟨es, rfl, fun e => mem_ofEntries_iff⟩, nodup_keys _, pairwise_bytes _⟩
    have ht := hsaved (ofEntries home es)
    rwa [home_ofEntries] at ht

/-- Two values for one name, after one with escapes and the largest id. -/
theorem loads_as_saved_repeated :
    let text := "[[[18446744073709551615,\"n\",\"\\u0007\\ud83d\\ude00\\\\\"]," ++
      "[0,\"nick\",\"x\"],[0,\"nick\",\"y\"]]]"
    let t := ofEntries "/"
      [⟨18446744073709551615, "n", "\x07😀\\"⟩, ⟨0, "nick", "x"⟩, ⟨0, "nick", "y"⟩]
    (Content.load "s.json" (.bytes text.toUTF8)).map (ofEntries "/") = .ok t ∧
      (Content.load "s.json" (.bytes (writeDocument t.entries).toUTF8)).map (ofEntries "/") =
        .ok t ∧
      t.entries = [⟨0, "nick", "y"⟩, ⟨18446744073709551615, "n", "\x07😀\\"⟩] := by
  intro text t
  have hread : readDocument? text = some [⟨18446744073709551615, "n", "\x07😀\\"⟩,
      ⟨0, "nick", "x"⟩, ⟨0, "nick", "y"⟩] := by decide +kernel
  have hload : (Content.load "s.json" (.bytes text.toUTF8)).map (ofEntries "/") = .ok t := by
    rw [load_toUTF8 "s.json" hread]
    rfl
  obtain ⟨-, -, hloaded⟩ := loads_as_saved "s.json"
  exact ⟨hload, (hloaded "/" _ t hload).1, by decide⟩

end Store
end HubConsole
