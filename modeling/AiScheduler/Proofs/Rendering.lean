/-
  **WHEN RENDERING AN EVENT PAYLOAD IS SIMULTANEOUS SUBSTITUTION.**

  `renderEventPayload` replaces one placeholder after the other in the growing result. A name or
  value can bring in a placeholder, or complete one with the text around it, which a LATER pass then
  expands — in one order of the payload map, and not in another.

  Main results:
    - `render_simultaneous_iff`  — the exact condition: no payload placeholder is completed once the
                                   name and all the other values are in the template;
    - `render_depends_on_order`  — a value that is a placeholder.
-/
import AiScheduler.Handler.Events
import AiScheduler.Lib.Substitution

namespace AiScheduler.Events

open Lib List

variable {template : String} {req : PublishEventRequest} {payload : List (String × String)}

/-! ## The passes. -/

/-- What `renderEventPayload` replaces first. -/
def nameEntry (eventName : String) : Entry Char where
  mark := "\x7b\x7b.event.name\x7d\x7d".toList
  value := eventName.toList

/-- What it replaces for a key of the payload. -/
def payloadEntry (kv : String × String) : Entry Char where
  mark := ("\x7b\x7b.event.payload." ++ kv.1 ++ "\x7d\x7d").toList
  value := kv.2.toList

/-- The event's placeholders and their values. -/
def entries (req : PublishEventRequest) : List (Entry Char) :=
  nameEntry req.eventName :: req.payload.map payloadEntry

/-- **Only the template's placeholders are replaced**: each pass over the payload finds its
placeholder in the result so far as often as the template holds it. -/
def OnlyPlaceholders (template : String) (req : PublishEventRequest) : Prop :=
  ∀ pre kv post, req.payload = pre ++ kv :: post →
    occurrences (payloadEntry kv).mark
      (renderEventPayload template { req with payload := pre }).toList
      = occurrences (payloadEntry kv).mark template.toList

/-- `strings.ReplaceAll` is the substitution of one text. -/
theorem replaceAll_eq_substitute {e : Entry Char} (he : e.mark ≠ []) :
    ∀ (fuel : Nat) (cs : List Char), cs.length ≤ fuel →
      replaceAll e.mark e.value fuel cs = substitute [e] cs := by
  have hpos : 0 < e.mark.length := length_pos_of_ne_nil he
  intro fuel
  induction fuel with
  | zero =>
    intro cs hle
    rw [length_eq_zero_iff.mp (Nat.le_zero.mp hle)]
    rfl
  | succ fuel ih =>
  intro cs hle
  cases cs with
  | nil => rfl
  | cons c cs =>
  rw [length_cons] at hle
  unfold replaceAll substitute cut
  by_cases hp : e.mark <+: c :: cs
  · have hp' : e.mark.isPrefixOf (c :: cs) = true := isPrefixOf_iff_prefix.mpr hp
    rw [if_pos hp', find?_cons_of_pos (by simpa using hp)]
    show _ = e.value ++ fill _ (cut [e] (e.mark.length - 1) cs)
    have hdrop : (c :: cs).drop e.mark.length = cs.drop (e.mark.length - 1) := by
      obtain ⟨n, hn⟩ := Nat.exists_eq_succ_of_ne_zero hpos.ne'
      rw [hn]
      rfl
    rw [cut_drop, ih _ (by rw [length_drop, length_cons]; omega), hdrop]
    rfl
  · rw [if_neg (mt isPrefixOf_iff_prefix.mp hp), find?_cons_of_neg (by simpa using hp)]
    exact congrArg _ (ih cs (by omega))

theorem toList_replaceString (s old new : String) (hold : old.toList ≠ []) :
    (replaceString s old new).toList = substitute [⟨old.toList, new.toList⟩] s.toList := by
  unfold replaceString
  rw [String.toList_ofList]
  exact replaceAll_eq_substitute (e := ⟨old.toList, new.toList⟩) hold _ _ (Nat.le_refl _)

theorem toList_render (template : String) (req : PublishEventRequest) :
    (renderEventPayload template req).toList = replaceEach (entries req) template.toList := by
  unfold renderEventPayload entries replaceEach
  rw [foldl_cons, foldl_map]
  -- the result of the passes so far is the text the next one works on
  have hfold : ∀ (l : List (String × String)) (s : String) (cs : List Char), s.toList = cs →
      (l.foldl (fun result kv => replaceString result
        ("\x7b\x7b.event.payload." ++ kv.1 ++ "\x7d\x7d") kv.2) s).toList
      = l.foldl (fun cs kv => substitute [payloadEntry kv] cs) cs := by
    intro l
    induction l with
    | nil => exact fun s cs h => h
    | cons kv l ih =>
      intro s cs h
      refine ih _ _ ?_
      rw [toList_replaceString _ _ _ (by simp), h]
      rfl
  exact hfold _ _ _ (toList_replaceString _ _ _ (by simp))

/-! ## Any order. -/

theorem payloadEntry_injective : Function.Injective payloadEntry := by
  rintro ⟨k, v⟩ ⟨k', v'⟩ h
  have hmark := congrArg Entry.mark h
  have hvalue := congrArg Entry.value h
  simp only [payloadEntry, String.toList_append, append_cancel_right_eq, append_cancel_left_eq,
    String.toList_inj] at hmark hvalue
  rw [hmark, hvalue]

theorem payloadEntry_ne_nameEntry (kv : String × String) (eventName : String) :
    payloadEntry kv ≠ nameEntry eventName := by
  intro h
  have hmark : ("\x7b\x7b.event.payload." ++ kv.1 ++ "\x7d\x7d").toList
      = "\x7b\x7b.event.name\x7d\x7d".toList := congrArg Entry.mark h
  simp at hmark

theorem nodup_entries (hkeys : (req.payload.map Prod.fst).Nodup) : (entries req).Nodup := by
  unfold entries
  rw [nodup_cons]
  refine ⟨?_, (Nodup.of_map _ hkeys).map payloadEntry_injective⟩
  intro hmem
  obtain ⟨kv, _, heq⟩ := mem_map.mp hmem
  exact payloadEntry_ne_nameEntry kv _ heq

theorem entries_perm (h : payload.Perm req.payload) :
    (entries { req with payload := payload }).Perm (entries req) :=
  (h.map payloadEntry).cons _

/-- A pass is that of the name, the first, or that of a key. -/
theorem entries_eq_append {pre post : List (Entry Char)} {e : Entry Char}
    (h : entries req = pre ++ e :: post) (hpre : pre ≠ []) :
    ∃ before kv after, req.payload = before ++ kv :: after ∧ e = payloadEntry kv
      ∧ pre = entries { req with payload := before } := by
  obtain ⟨first, pre, rfl⟩ := exists_cons_of_ne_nil hpre
  obtain ⟨rfl, hmap⟩ := cons.inj h
  obtain ⟨before, rest, hsplit, rfl, hrest⟩ := map_eq_append_iff.mp hmap
  obtain ⟨kv, after, rfl, rfl, rfl⟩ := map_eq_cons_iff.mp hrest
  exact ⟨before, kv, after, hsplit, rfl, rfl⟩

theorem onlyPlaceholders_iff :
    OnlyPlaceholders template req ↔ OnlyTemplate (entries req) template.toList := by
  constructor
  · intro h pre e post heq
    by_cases hpre : pre = []
    · rw [hpre]
      rfl
    -- the pass of a key: the result so far is that of the keys before it
    obtain ⟨before, kv, after, hsplit, rfl, rfl⟩ := entries_eq_append heq hpre
    rw [← toList_render]
    exact h before kv after hsplit
  · intro h pre kv post heq
    rw [toList_render]
    refine h (nameEntry req.eventName :: pre.map payloadEntry) _ (post.map payloadEntry) ?_
    rw [entries, heq, map_append, map_cons]
    rfl

/-- **RENDERING IS SIMULTANEOUS SUBSTITUTION, in every order of the payload**, if and only if no
placeholder of the payload is completed by the name and the values of the other keys. -/
theorem render_simultaneous_iff (template : String) (req : PublishEventRequest)
    (hkeys : (req.payload.map Prod.fst).Nodup) (hapart : MarksApart (entries req)) :
    (∀ payload, payload.Perm req.payload →
      OnlyPlaceholders template { req with payload := payload }
        ∧ (renderEventPayload template { req with payload := payload }).toList
            = substitute (entries req) template.toList)
      ↔ ∀ kv ∈ req.payload,
          occurrences (payloadEntry kv).mark
              (substitute (entries { req with payload := req.payload.erase kv }) template.toList)
            = occurrences (payloadEntry kv).mark template.toList := by
  have hnd := nodup_entries hkeys
  have hsub : ∀ kv, entries { req with payload := req.payload.erase kv } ⊆ entries req :=
    fun kv => cons_subset_cons _ (map_subset _ erase_subset)
  constructor
  · intro h kv hkv
    -- the order in which the key comes last
    have hperm : (req.payload.erase kv ++ [kv]).Perm req.payload :=
      (perm_append_singleton kv _).trans (perm_cons_erase hkv).symm
    obtain ⟨honly, _⟩ := h _ hperm
    have hlast := honly _ kv [] rfl
    have honly := onlyPlaceholders_iff.mp honly
    have hentries : entries { req with payload := req.payload.erase kv ++ [kv] }
        = entries { req with payload := req.payload.erase kv } ++ [payloadEntry kv] := by
      rw [entries, entries, map_append]
      rfl
    rw [hentries] at honly
    rw [toList_render, honly.of_append.replaceEach_eq hapart (hsub kv)
      (nodup_entries (hkeys.sublist (erase_sublist.map _)))] at hlast
    exact hlast
  intro h payload hperm
  have hentries := entries_perm hperm
  have hnd' := hentries.nodup_iff.mpr hnd
  have honly : OnlyTemplate (entries { req with payload := payload }) template.toList := by
    refine onlyTemplate_of_completes hapart hentries.subset hnd' ?_
    intro pre e post heq hpre
    obtain ⟨before, kv, after, hsplit, rfl, rfl⟩ := entries_eq_append heq hpre
    have hsplit : payload = before ++ kv :: after := hsplit
    subst hsplit
    have hkv : kv ∈ req.payload := hperm.subset (mem_append_right _ (.head _))
    have hpayload : req.payload.Nodup := hkeys.of_map _
    have hbefore : before ⊆ req.payload.erase kv := by
      intro c hc
      have hne : c ≠ kv := fun hce =>
        disjoint_of_nodup_append (hperm.nodup_iff.mpr hpayload) (hce ▸ hc) (.head _)
      exact (mem_erase_of_ne hne).mpr (hperm.subset (mem_append_left _ hc))
    refine ⟨_, cons_subset_cons _ (map_subset _ hbefore), hsub kv, ?_, h kv hkv⟩
    -- the key's own entry is not among the others
    intro hmem
    rcases mem_cons.mp hmem with heq | hmem
    · exact payloadEntry_ne_nameEntry kv _ heq
    · obtain ⟨kv', hkv', heq⟩ := mem_map.mp hmem
      exact hpayload.not_mem_erase (payloadEntry_injective heq ▸ hkv')
  refine ⟨onlyPlaceholders_iff.mpr honly, ?_⟩
  rw [toList_render, honly.replaceEach_eq hapart hentries.subset hnd']
  exact substitute_perm hapart (Subset.refl _) hentries

/-- A JSON value for the whole payload of a task. -/
def jsonEvent : PublishEventRequest := { eventName := "up", payload := [("a", "\x7b\"x\":1\x7d")] }

theorem render_simultaneous_json :
    OnlyPlaceholders "\x7b\x7b.event.payload.a\x7d\x7d" jsonEvent
      ∧ (renderEventPayload "\x7b\x7b.event.payload.a\x7d\x7d" jsonEvent).toList
        = substitute (entries jsonEvent) "\x7b\x7b.event.payload.a\x7d\x7d".toList :=
  (render_simultaneous_iff _ jsonEvent (by decide) (by decide)).mpr (by decide) _ (.refl _)

/-- **A value with a placeholder in it** is expanded by a later pass, and not by an earlier one. -/
theorem render_depends_on_order :
    renderEventPayload "\x7b\x7b.event.payload.a\x7d\x7d"
        { eventName := "up", payload := [("a", "\x7b\x7b.event.payload.b\x7d\x7d"), ("b", "x")] }
            = "x"
      ∧ renderEventPayload "\x7b\x7b.event.payload.a\x7d\x7d"
        { eventName := "up", payload := [("b", "x"), ("a", "\x7b\x7b.event.payload.b\x7d\x7d")] }
          = "\x7b\x7b.event.payload.b\x7d\x7d" := by
  decide

end AiScheduler.Events
