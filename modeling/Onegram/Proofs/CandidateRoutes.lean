import Onegram.RouteCoordinator

/-!
# Each route once, in two passes

The two passes together are the routes profile by profile, in another order, and the remembered
route is taken out and put in front of the rest. Its key names no other route, since an index is
written in digits.
-/

namespace Onegram.RouteCoordinator

/-! ## The endpoints of a profile -/

theorem foldl_add_mem {ep : Text} : ∀ (live endpoints : List Text),
    ep ∈ live.foldl (fun endpoints ep => if ep ∈ endpoints then endpoints else endpoints ++ [ep])
        endpoints
      ↔ ep ∈ endpoints ∨ ep ∈ live
  | [], endpoints => by simp
  | e :: live, endpoints => by
    rw [List.foldl_cons, foldl_add_mem live]
    split_ifs with h
    · constructor
      · rintro (hmem | hmem)
        · exact Or.inl hmem
        · exact Or.inr (List.mem_cons_of_mem _ hmem)
      · rintro (hmem | hmem)
        · exact Or.inl hmem
        · rcases List.mem_cons.1 hmem with rfl | hmem
          · exact Or.inl h
          · exact Or.inr hmem
    · rw [List.mem_append, List.mem_singleton, List.mem_cons, or_assoc]

theorem foldl_add_nodup : ∀ (live : List Text) {endpoints : List Text}, endpoints.Nodup →
    (live.foldl (fun endpoints ep => if ep ∈ endpoints then endpoints else endpoints ++ [ep])
      endpoints).Nodup
  | [], _, h => h
  | e :: live, endpoints, h => by
    rw [List.foldl_cons]
    split_ifs with hmem
    · exact foldl_add_nodup live h
    · refine foldl_add_nodup live (h.append (List.nodup_singleton e) ?_)
      rw [List.disjoint_singleton]
      exact hmem

/-- The endpoint that a configuration names, unless it is empty or dead. -/
def OwnEndpoint (parsed : List (Text × Text)) (ep : Text) : Prop :=
  parsed.lookup "endpoint".toList = some ep ∧ ep ≠ [] ∧ ¬endpointIsDead ep

theorem mem_endpointsForConf {parsed : List (Text × Text)} {ep : Text} :
    ep ∈ endpointsForConf parsed ↔ ep ∈ liveEndpoints ∨ OwnEndpoint parsed ep := by
  rw [endpointsForConf, foldl_add_mem, or_comm, OwnEndpoint]
  cases parsed.lookup "endpoint".toList with
  | none => simp
  | some own =>
    simp only [Option.some.injEq]
    split_ifs with h
    · rw [List.mem_singleton]
      constructor
      · rintro (hlive | rfl)
        · exact Or.inl hlive
        · exact Or.inr ⟨rfl, h⟩
      · rintro (hlive | ⟨rfl, -⟩)
        · exact Or.inl hlive
        · exact Or.inr rfl
    · constructor
      · rintro (hlive | hnil)
        · exact Or.inl hlive
        · cases hnil
      · rintro (hlive | ⟨rfl, hown⟩)
        · exact Or.inl hlive
        · exact absurd hown h

theorem nodup_endpointsForConf (parsed : List (Text × Text)) : (endpointsForConf parsed).Nodup := by
  rw [endpointsForConf]
  apply foldl_add_nodup
  cases parsed.lookup "endpoint".toList with
  | none => exact List.nodup_nil
  | some own =>
    simp only
    split_ifs
    · exact List.nodup_singleton own
    · exact List.nodup_nil

/-! ## The two passes -/

/-- The routes of a profile that a part of its endpoints stand for. -/
def routesOf (index : ℕ) (endpoints : List Text) : List Route := endpoints.map fun ep => (index, ep)

theorem addEndpoints_eq (index : ℕ) : ∀ (endpoints : List Text) (e : ℕ) (firstPass rest : List Route),
    addEndpoints index endpoints e (firstPass, rest)
      = (firstPass ++ routesOf index (endpoints.take (endpointsInFirstPass - e)),
          rest ++ routesOf index (endpoints.drop (endpointsInFirstPass - e)))
  | [], _, _, _ => by simp [addEndpoints, routesOf]
  | ep :: endpoints, e, firstPass, rest => by
    rw [addEndpoints]
    split_ifs with h
    · obtain ⟨k, hk⟩ : ∃ k, endpointsInFirstPass - e = k + 1 :=
        ⟨endpointsInFirstPass - e - 1, by omega⟩
      have hk' : endpointsInFirstPass - (e + 1) = k := by omega
      rw [addEndpoints_eq index endpoints, hk', hk, List.take_succ_cons, List.drop_succ_cons,
        List.append_assoc]
      rfl
    · have hk : endpointsInFirstPass - e = 0 := by omega
      have hk' : endpointsInFirstPass - (e + 1) = 0 := by omega
      rw [addEndpoints_eq index endpoints, hk', hk, List.take_zero, List.take_zero, List.drop_zero,
        List.drop_zero, List.append_assoc]
      rfl

theorem foldl_addEndpoints (profiles : List Profile) : ∀ (indices : List ℕ)
    (firstPass rest : List Route),
    indices.foldl (fun passes index => addEndpoints index (endpointsOf profiles index) 0 passes)
        (firstPass, rest)
      = (firstPass ++ indices.flatMap fun index =>
            routesOf index ((endpointsOf profiles index).take endpointsInFirstPass),
          rest ++ indices.flatMap fun index =>
            routesOf index ((endpointsOf profiles index).drop endpointsInFirstPass))
  | [], _, _ => by simp
  | index :: indices, firstPass, rest => by
    rw [List.foldl_cons, addEndpoints_eq, foldl_addEndpoints profiles indices, List.flatMap_cons,
      List.flatMap_cons, List.append_assoc, List.append_assoc, Nat.sub_zero]

/-- The passes one behind the other. -/
def firstRoutes (profiles : List Profile) (indices : List ℕ) : List Route :=
  indices.flatMap fun index =>
    routesOf index ((endpointsOf profiles index).take endpointsInFirstPass)

def otherRoutes (profiles : List Profile) (indices : List ℕ) : List Route :=
  indices.flatMap fun index =>
    routesOf index ((endpointsOf profiles index).drop endpointsInFirstPass)

theorem candidateRoutes_eq (profiles : List Profile) (selected : ℤ) (remembered : Option Text) :
    candidateRoutesForProfiles profiles selected remembered
      = rememberedFirst remembered (firstRoutes profiles (selectedIndices profiles selected)
          ++ otherRoutes profiles (selectedIndices profiles selected)) := by
  rw [candidateRoutesForProfiles, foldl_addEndpoints, List.nil_append, List.nil_append]
  rfl

theorem passes_perm (profiles : List Profile) (indices : List ℕ) :
    (firstRoutes profiles indices ++ otherRoutes profiles indices).Perm
      (indices.flatMap fun index => routesOf index (endpointsOf profiles index)) := by
  have h := List.flatMap_append_perm indices
    (fun index => routesOf index ((endpointsOf profiles index).take endpointsInFirstPass))
    (fun index => routesOf index ((endpointsOf profiles index).drop endpointsInFirstPass))
  have hjoin (index : ℕ) :
      routesOf index ((endpointsOf profiles index).take endpointsInFirstPass)
        ++ routesOf index ((endpointsOf profiles index).drop endpointsInFirstPass)
      = routesOf index (endpointsOf profiles index) := by
    rw [routesOf, routesOf, ← List.map_append, List.take_append_drop]
    rfl
  simp only [hjoin] at h
  exact h

theorem mem_routesOf {index : ℕ} {endpoints : List Text} {r : Route} :
    r ∈ routesOf index endpoints ↔ r.1 = index ∧ r.2 ∈ endpoints := by
  obtain ⟨i, ep⟩ := r
  rw [routesOf, List.mem_map]
  constructor
  · rintro ⟨e, he, heq⟩
    obtain ⟨rfl, rfl⟩ := Prod.mk.inj heq
    exact ⟨rfl, he⟩
  · rintro ⟨rfl, he⟩
    exact ⟨ep, he, rfl⟩

theorem nodup_endpointsOf (profiles : List Profile) (index : ℕ) :
    (endpointsOf profiles index).Nodup := by
  rw [endpointsOf]
  cases profiles[index]? with
  | none => exact List.nodup_nil
  | some profile => exact nodup_endpointsForConf _

theorem nodup_selectedIndices (profiles : List Profile) (selected : ℤ) :
    (selectedIndices profiles selected).Nodup := by
  rw [selectedIndices]
  split_ifs
  · exact List.nodup_singleton _
  · exact List.nodup_range

/-- No two profiles, and no two endpoints of one profile, give the same route. -/
theorem nodup_passes (profiles : List Profile) {indices : List ℕ} (h : indices.Nodup) :
    (firstRoutes profiles indices ++ otherRoutes profiles indices).Nodup := by
  rw [(passes_perm profiles indices).nodup_iff, List.nodup_flatMap]
  constructor
  · intro index _
    exact (nodup_endpointsOf profiles index).map fun a b hab => (Prod.mk.inj hab).2
  · refine h.imp ?_
    intro i j hij r hi hj
    exact hij ((mem_routesOf.1 hi).1.symm.trans (mem_routesOf.1 hj).1)

theorem mem_passes {profiles : List Profile} {indices : List ℕ} {r : Route} :
    r ∈ firstRoutes profiles indices ++ otherRoutes profiles indices
      ↔ r.1 ∈ indices ∧ r.2 ∈ endpointsOf profiles r.1 := by
  rw [(passes_perm profiles indices).mem_iff, List.mem_flatMap]
  constructor
  · rintro ⟨index, hindex, hr⟩
    obtain ⟨rfl, hep⟩ := mem_routesOf.1 hr
    exact ⟨hindex, hep⟩
  · rintro ⟨hindex, hep⟩
    exact ⟨r.1, hindex, mem_routesOf.2 ⟨rfl, hep⟩⟩

/-! ## The remembered route -/

theorem routeKey_injective : Function.Injective routeKey := by
  rintro ⟨i, a⟩ ⟨j, b⟩ h
  have hdigit (n : ℕ) : ∀ c ∈ Nat.toDigits 10 n, c ≠ '|' := by
    rintro c hc rfl
    have hd := Nat.isDigit_of_mem_toDigits (by norm_num) (by norm_num) hc
    cases hd
  have htake (n : ℕ) (ep : Text) : (routeKey (n, ep)).takeWhile (· ≠ '|') = Nat.toDigits 10 n := by
    rw [routeKey, List.takeWhile_append_of_pos fun c hc => by simpa using hdigit n c hc]
    simp
  have hindex : Nat.toDigits 10 i = Nat.toDigits 10 j := by
    rw [← htake i a, ← htake j b, h]
  have hij : i = j := by
    rw [← Nat.ofDigitChars_ten_toDigits (n := i), hindex, Nat.ofDigitChars_ten_toDigits]
  rw [routeKey, routeKey, hindex] at h
  have hab : a = b := (List.cons.inj (List.append_cancel_left h)).2
  rw [hij, hab]

/-- Either no route has the key, or the one that has it is moved to the front. -/
theorem rememberedFirst_cases (remembered : Option Text) (routes : List Route) :
    (rememberedFirst remembered routes = routes ∧ ∀ r ∈ routes, remembered ≠ some (routeKey r))
    ∨ ∃ r before after, remembered = some (routeKey r) ∧ routes = before ++ r :: after
        ∧ rememberedFirst remembered routes = r :: (before ++ after) := by
  rcases remembered with _ | key
  · exact Or.inl ⟨rfl, fun r _ h => by cases h⟩
  rw [rememberedFirst]
  cases hfind : routes.find? (routeKey · = key) with
  | none =>
    left
    refine ⟨rfl, fun r hr hkey => ?_⟩
    have hne := List.find?_eq_none.1 hfind r hr
    exact hne (by simpa using (Option.some.inj hkey).symm)
  | some r =>
    right
    have hkey : routeKey r = key := by simpa using List.find?_some hfind
    obtain ⟨q, before, after, -, hq, hsplit, herase⟩ :=
      List.exists_of_eraseP (List.mem_of_find?_eq_some hfind) (List.find?_some hfind)
    have hqkey : routeKey q = key := by simpa using hq
    obtain rfl : q = r := routeKey_injective (hqkey.trans hkey.symm)
    exact ⟨q, before, after, by rw [hkey], hsplit, by rw [herase]⟩

theorem rememberedFirst_perm (remembered : Option Text) (routes : List Route) :
    (rememberedFirst remembered routes).Perm routes := by
  rcases rememberedFirst_cases remembered routes with ⟨h, -⟩ | ⟨r, before, after, -, hsplit, h⟩
  · rw [h]
  · rw [h, hsplit]
    exact List.perm_middle.symm

/-- What stood before another route does so still, unless the other one was remembered. -/
theorem rememberedFirst_sublist {remembered : Option Text} {routes : List Route} {a b : Route}
    (hnodup : routes.Nodup) (hab : [a, b].Sublist routes) (hb : remembered ≠ some (routeKey b)) :
    [a, b].Sublist (rememberedFirst remembered routes) := by
  rcases rememberedFirst_cases remembered routes with ⟨h, -⟩ | ⟨r, before, after, hr, hsplit, h⟩
  · rw [h]
    exact hab
  have hbr : b ≠ r := by
    rintro rfl
    exact hb hr
  rw [hsplit] at hnodup hab
  have herase : (before ++ r :: after).erase r = before ++ after := by
    have hnot : r ∉ before := fun hmem =>
      (List.disjoint_of_nodup_append hnodup) hmem List.mem_cons_self
    rw [List.erase_append_right _ hnot, List.erase_cons_head]
  have hrest := hab.erase r
  rw [herase] at hrest
  rw [h]
  by_cases har : a = r
  · subst har
    rw [List.erase_cons_head] at hrest
    exact hrest.cons_cons a
  · rw [List.erase_cons_tail (by simpa using har), List.erase_cons_tail (by simpa using hbr)] at hrest
    exact hrest.cons r

/-! ## The candidates -/

/-- A profile offers the endpoints that are known to live, and its own unless that is dead. -/
def Offers (profiles : List Profile) (index : ℕ) (ep : Text) : Prop :=
  ∃ profile, profiles[index]? = some profile
    ∧ (ep ∈ liveEndpoints ∨ OwnEndpoint (profileFromConf profile.conf) ep)

theorem mem_endpointsOf {profiles : List Profile} {index : ℕ} {ep : Text} :
    ep ∈ endpointsOf profiles index ↔ Offers profiles index ep := by
  rw [endpointsOf, Offers]
  cases profiles[index]? with
  | none => simp
  | some profile => simp [mem_endpointsForConf]

/-- Every route of the selected profiles once, the remembered one first, and of all others those
with one of a profile's first `n` endpoints before those with a later one. -/
structure Candidates (n : ℕ) (profiles : List Profile) (selected : ℤ) (remembered : Option Text)
    (routes : List Route) : Prop where
  nodup : routes.Nodup
  mem_iff : ∀ r : Route,
    r ∈ routes ↔ r.1 ∈ selectedIndices profiles selected ∧ Offers profiles r.1 r.2
  remembered_first : ∀ r ∈ routes, remembered = some (routeKey r) → routes.head? = some r
  passes : ∀ (i j x y : ℕ) (a b : Text), i ∈ selectedIndices profiles selected →
    j ∈ selectedIndices profiles selected → (endpointsOf profiles i)[x]? = some a → x < n →
    (endpointsOf profiles j)[y]? = some b → n ≤ y → remembered ≠ some (routeKey (j, b)) →
    [(i, a), (j, b)].Sublist routes

theorem mem_firstRoutes {profiles : List Profile} {indices : List ℕ} {i x : ℕ} {a : Text}
    (hi : i ∈ indices) (ha : (endpointsOf profiles i)[x]? = some a) (hx : x < endpointsInFirstPass) :
    (i, a) ∈ firstRoutes profiles indices := by
  refine List.mem_flatMap.2 ⟨i, hi, mem_routesOf.2 ⟨rfl, ?_⟩⟩
  exact List.mem_of_getElem? (by rw [List.getElem?_take_of_lt hx, ha])

theorem mem_otherRoutes {profiles : List Profile} {indices : List ℕ} {j y : ℕ} {b : Text}
    (hj : j ∈ indices) (hb : (endpointsOf profiles j)[y]? = some b) (hy : endpointsInFirstPass ≤ y) :
    (j, b) ∈ otherRoutes profiles indices := by
  refine List.mem_flatMap.2 ⟨j, hj, mem_routesOf.2 ⟨rfl, ?_⟩⟩
  refine List.mem_of_getElem? (i := y - endpointsInFirstPass) ?_
  rw [List.getElem?_drop, Nat.add_sub_cancel' hy, hb]

theorem candidateRoutesForProfiles_spec (profiles : List Profile) (selected : ℤ)
    (remembered : Option Text) :
    Candidates endpointsInFirstPass profiles selected remembered
      (candidateRoutesForProfiles profiles selected remembered) := by
  have hnodup := nodup_passes profiles (nodup_selectedIndices profiles selected)
  have hperm := rememberedFirst_perm remembered
    (firstRoutes profiles (selectedIndices profiles selected)
      ++ otherRoutes profiles (selectedIndices profiles selected))
  rw [candidateRoutes_eq]
  refine ⟨hperm.nodup_iff.2 hnodup, ?_, ?_, ?_⟩
  · intro r
    rw [hperm.mem_iff, mem_passes, mem_endpointsOf]
  · intro r hr hkey
    rcases rememberedFirst_cases remembered _ with ⟨h, hnone⟩ | ⟨q, before, after, hq, -, h⟩
    · exact absurd hkey (hnone r (hperm.mem_iff.1 hr))
    · have hqr : q = r := routeKey_injective (Option.some.inj (hq.symm.trans hkey))
      rw [h, List.head?_cons, hqr]
  · intro i j x y a b hi hj ha hx hb hy hkey
    refine rememberedFirst_sublist hnodup ?_ hkey
    have hfirst := List.singleton_sublist.2 (mem_firstRoutes hi ha hx)
    have hother := List.singleton_sublist.2 (mem_otherRoutes hj hb hy)
    exact hfirst.append hother

/-- With two profiles the second endpoint of one comes before any of the other. -/
theorem two_profiles_order :
    ¬Candidates 1 [⟨[]⟩, ⟨[]⟩] 0 none (candidateRoutesForProfiles [⟨[]⟩, ⟨[]⟩] 0 none) := by
  intro h
  have hbefore := h.passes 1 0 0 1 "188.114.96.1:4500".toList "188.114.97.3:4500".toList
    (by decide +kernel) (by decide +kernel) (by decide +kernel) (by decide) (by decide +kernel)
    le_rfl (by simp)
  revert hbefore
  decide +kernel

end Onegram.RouteCoordinator
