import HubConsole.Proofs.Effect
import Mathlib.Data.List.NodupEquivFin

/-! # The order of tabs

`Tabs.Orderly`: the main tab comes first, each tab is there once, one of them is the current one, and
each private chat stands to the right of its hub's own tab. Tabs are only ever added on the right and
a hub's tab is closed together with its chats, so this holds all through a run (`tabs_after`). -/

namespace HubConsole

namespace Tabs
variable {ts : Tabs} {t : Tab} {hub : HubId} {uid : UserId} {nick : String}

/-- The tabs stand in order. -/
structure Orderly (ts : Tabs) : Prop where
  main : ts.all.head? = some .main
  distinct : ts.Distinct
  position : ts.position < ts.all.length
  chats : ∀ hub uid nick, .chat hub uid nick ∈ ts.all →
    [.hub hub, .chat hub uid nick].Sublist ts.all

theorem orderly_start : start.Orderly :=
  ⟨rfl, distinct_start, by decide, by simp [start]⟩

theorem indexOf_add_lt : (ts.add t).indexOf t < (ts.add t).all.length :=
  List.idxOf_lt_length_of_mem (mem_add.2 (.inr rfl))

theorem sublist_add : ts.all.Sublist (ts.add t).all := by
  unfold add
  split
  · exact List.Sublist.refl _
  · exact List.sublist_append_left _ _

theorem position_keep_lt {kept : List Tab} (h : kept ≠ []) :
    (ts.keep kept).position < (ts.keep kept).all.length := by
  have hlen : 0 < kept.length := List.length_pos_iff.2 h
  show min (ts.position - 1) (kept.length - 1) < kept.length
  omega

namespace Orderly

theorem getElem?_current (h : ts.Orderly) : ts.all[ts.position]? = some ts.current := by
  rw [current, List.getD_eq_getElem?_getD, List.getElem?_eq_getElem h.position]
  rfl

theorem main_mem (h : ts.Orderly) : .main ∈ ts.all := List.mem_of_mem_head? h.main

/-- The hub of a private chat is open. -/
theorem hub_mem (h : ts.Orderly) (hchat : .chat hub uid nick ∈ ts.all) : .hub hub ∈ ts.all :=
  (h.chats hub uid nick hchat).subset List.mem_cons_self

/-- The hub that the current tab belongs to is open. -/
theorem hub_mem_of_current (h : ts.Orderly) (hcur : ts.current.hub? = some hub) :
    .hub hub ∈ ts.all := by
  have hmem : ts.current ∈ ts.all := List.mem_of_getElem? h.getElem?_current
  cases ht : ts.current with
  | main =>
    rw [ht] at hcur
    cases hcur
  | hub k =>
    rw [ht] at hcur hmem
    exact Option.some.inj hcur ▸ hmem
  | chat k uid nick =>
    rw [ht] at hcur hmem
    exact Option.some.inj hcur ▸ h.hub_mem hmem

/-- The hub's own tab stands to the left of a private chat. -/
theorem hub_before (h : ts.Orderly) {i : Nat} (hi : ts.all[i]? = some (.chat hub uid nick)) :
    ∃ j < i, ts.all[j]? = some (.hub hub) := by
  have hsub := h.chats hub uid nick (List.mem_of_getElem? hi)
  obtain ⟨f, hf⟩ := List.sublist_iff_exists_orderEmbedding_getElem?_eq.1 hsub
  have hhub : ts.all[f 0]? = some (.hub hub) := (hf 0).symm
  have hchat : ts.all[f 1]? = some (.chat hub uid nick) := (hf 1).symm
  have hlt : f 0 < f 1 := f.lt_iff_lt.2 Nat.zero_lt_one
  obtain ⟨hbound, -⟩ := List.getElem?_eq_some_iff.1 hi
  have hi1 : i = f 1 := (List.getElem?_inj hbound h.distinct).1 (hi.trans hchat.symm)
  exact ⟨f 0, hi1 ▸ hlt, hhub⟩

/-! ## What is done with tabs -/

/-- A tab is added; if it is a private chat, its hub must be open. -/
theorem add (h : ts.Orderly) (ht : ∀ hub uid nick, t = .chat hub uid nick → .hub hub ∈ ts.all) :
    (ts.add t).Orderly := by
  refine ⟨?_, h.distinct.add, ?_, fun hub uid nick hmem => ?_⟩
  · unfold Tabs.add
    split
    · exact h.main
    · rw [List.head?_append, h.main]
      rfl
  · have hle : ts.all.length ≤ (ts.add t).all.length := sublist_add.length_le
    have hpos : (ts.add t).position = ts.position := by
      unfold Tabs.add
      split <;> rfl
    rw [hpos]
    exact Nat.lt_of_lt_of_le h.position hle
  · by_cases hold : .chat hub uid nick ∈ ts.all
    · exact (h.chats hub uid nick hold).trans sublist_add
    · -- the chat is the new tab, which stands behind all others
      have hnew : Tab.chat hub uid nick = t := (mem_add.1 hmem).resolve_left hold
      subst hnew
      have hhub := List.singleton_sublist.2 (ht hub uid nick rfl)
      unfold Tabs.add
      rw [if_neg hold]
      exact hhub.append (List.Sublist.refl [Tab.chat hub uid nick])

theorem focus (h : ts.Orderly) (ht : ∀ hub uid nick, t = .chat hub uid nick → .hub hub ∈ ts.all) :
    (ts.focus t).Orderly := by
  have hadd := h.add ht
  exact ⟨hadd.main, hadd.distinct, indexOf_add_lt, hadd.chats⟩

theorem focusNext (h : ts.Orderly) : ts.focusNext.Orderly := by
  have hlen : 0 < ts.all.length := Nat.zero_lt_of_lt h.position
  exact ⟨h.main, h.distinct, Nat.mod_lt _ hlen, h.chats⟩

theorem focusPrevious (h : ts.Orderly) : ts.focusPrevious.Orderly := by
  have hlen : 0 < ts.all.length := Nat.zero_lt_of_lt h.position
  exact ⟨h.main, h.distinct, Nat.mod_lt _ hlen, h.chats⟩

/-- Some tabs are closed. The main tab stays, and a hub's own tab as long as one of its chats. -/
theorem keep_filter (h : ts.Orderly) {f : Tab → Bool} (hmain : f .main = true)
    (hhub : ∀ hub uid nick, f (.chat hub uid nick) = true → f (.hub hub) = true) :
    (ts.keep (ts.all.filter f)).Orderly := by
  have hhead : (ts.all.filter f).head? = some .main := by
    obtain ⟨rest, hrest⟩ := List.head?_eq_some_iff.1 h.main
    rw [hrest, List.filter_cons_of_pos hmain]
    rfl
  have hne : ts.all.filter f ≠ [] := by
    intro hnil
    rw [hnil] at hhead
    cases hhead
  refine ⟨hhead, h.distinct.keep_filter f, position_keep_lt hne, fun hub uid nick hmem => ?_⟩
  obtain ⟨hold, hchat⟩ := List.mem_filter.1 hmem
  have hsub := (h.chats hub uid nick hold).filter f
  rwa [List.filter_cons_of_pos (hhub hub uid nick hchat), List.filter_cons_of_pos hchat] at hsub

theorem closeHub (h : ts.Orderly) (hub : HubId) :
    (ts.keep (ts.all.filter fun t => t.hub? != some hub)).Orderly :=
  h.keep_filter rfl fun _ _ _ hkeep => hkeep

/-- No tab is there twice, so to leave out the current one is to keep all that differ from it. -/
theorem eraseIdx_position (h : ts.Orderly) :
    ts.all.eraseIdx ts.position = ts.all.filter (· != ts.current) := by
  obtain ⟨hlt, helem⟩ := List.getElem?_eq_some_iff.1 h.getElem?_current
  rw [← List.Nodup.erase_getElem h.distinct _ hlt, helem, List.Nodup.erase_eq_filter h.distinct]

theorem closeChat (h : ts.Orderly) (hcur : ts.current = .chat hub uid nick) :
    (ts.keep (ts.all.eraseIdx ts.position)).Orderly := by
  rw [h.eraseIdx_position, hcur]
  exact h.keep_filter rfl fun _ _ _ _ => rfl

end Orderly
end Tabs

namespace Session
variable {s : Session} {c : Command} {args : String} {ts : Tabs}

/-- Private chats are only opened from a tab of their hub. -/
theorem orderly_outcome (h : s.tabs.Orderly) (ho : TabsOutcome s c args ts) : ts.Orderly := by
  cases ho with
  | kept => exact h
  | opened => exact h.focus (by rintro _ _ _ ⟨⟩)
  | approached here user =>
    refine h.focus ?_
    rintro _ _ _ ⟨⟩
    exact h.hub_mem_of_current here
  | closedHub => exact h.closeHub _
  | closedChat tab => exact h.closeChat tab

theorem orderly_act {a : Act} (h : s.tabs.Orderly) : (s.act a).tabs.Orderly := by
  cases a with
  | line line =>
    rcases tabs_dispatch s line with heq | ⟨c, args, -, ho⟩
    · exact heq ▸ h
    · exact orderly_outcome h ho
  | autoconnect =>
    obtain ⟨tabs, link, log, heq, ht⟩ := autoconnect_induction (P := Tabs.Orderly) h
      fun ts hub _ hts => hts.add (by rintro _ _ _ ⟨⟩)
    rw [act, heq]
    exact ht
  | next => exact h.focusNext
  | previous => exact h.focusPrevious

theorem orderly_step {e : Event} (h : s.tabs.Orderly) : (s.step e).tabs.Orderly := by
  cases e with
  | act a => exact orderly_act h
  | world => exact h

theorem orderly_after (store : Store) (link : Link) (es : List Event) :
    ((new store link).after es).tabs.Orderly :=
  after_induction (P := fun s => s.tabs.Orderly) Tabs.orderly_start (fun _ _ => orderly_step) es

theorem distinct_after {store : Store} {link : Link} (es : List Event) :
    ((new store link).after es).tabs.Distinct :=
  (orderly_after store link es).distinct

/-- All through a run, whatever the hubs and their users do, the main tab is the first one and there
once, all tabs differ, the current one is among them, and each private chat stands to the right of
the tab of its hub. -/
theorem tabs_after (store : Store) (link : Link) (es : List Event) :
    let ts := ((new store link).after es).tabs
    ts.all.head? = some .main ∧ ts.all.count .main = 1 ∧ ts.all.Nodup ∧
      ts.position < ts.all.length ∧ ts.all[ts.position]? = some ts.current ∧
      ∀ (i : Nat) hub uid nick, ts.all[i]? = some (.chat hub uid nick) →
        ∃ j < i, ts.all[j]? = some (.hub hub) := by
  have h := orderly_after store link es
  refine ⟨h.main, ?_, h.distinct, h.position, h.getElem?_current, ?_⟩
  · exact List.count_eq_one_of_mem h.distinct h.main_mem
  · intro i hub uid nick hi
    exact h.hub_before hi

end Session
end HubConsole
