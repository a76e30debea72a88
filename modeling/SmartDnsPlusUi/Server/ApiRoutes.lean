import SmartDnsPlusUi.Server.ApiRouter

/-!
# The order of the routes

Routes are looked up as they were registered, in whatever order, as long as the text of a
pattern that is new is matched by no pattern that is there.
-/

namespace SmartDnsPlusUi.Api

open Table

/-! ### One registration -/

section

variable {Method Handler : Type}
variable {router : Router Method Handler} {registration : Registration Method Handler}

@[simp] theorem patterns_put (slot : Pattern) (routeData : ApiRouter Method Handler) :
    (router.put slot routeData).patterns = router.patterns := rfl

theorem at_source_of_mem {patterns : List Pattern} (compatible : Compatible patterns)
    (inside : router.patterns ⊆ patterns) (plain : ∀ pattern ∈ router.patterns, IsPlain pattern)
    {pattern : Pattern} (member : pattern ∈ router.patterns) :
    router.at (source pattern) = some pattern := by
  refine (best_eq_some_iff (compatible.subset inside).separates).2 ⟨member, ?_, ?_⟩
  · exact isMatch_source_iff.2 (plain pattern member)
  · exact fun other listed => rank_le_of_isMatch_source (plain other listed)

theorem insert_of_notMem {patterns : List Pattern} (compatible : Compatible patterns)
    (inside : router.patterns ⊆ patterns) {pattern : Pattern} (member : pattern ∈ patterns)
    (new : pattern ∉ router.patterns) :
    router.insert pattern = some { router with patterns := router.patterns ++ [pattern] } := by
  refine if_neg fun present => ?_
  obtain ⟨other, listed, same⟩ := List.any_eq_true.1 present
  have equal := compatible other (inside listed) pattern member (of_decide_eq_true same)
  exact new (equal ▸ listed)

/-- What a registration does: it may insert its pattern, and it may put its route under a
pattern that is there, the best match of the text of its own. -/
theorem register_cases (router : Router Method Handler)
    (registration : Registration Method Handler) :
    ∃ base : Router Method Handler, base.methods = router.methods ∧
      (base = router ∨ router.at (source registration.path) = none ∧
        base = (router.insert registration.path).getD router) ∧
      (base.at (source registration.path) = none ∧ router.register registration = base ∨
        ∃ slot, base.at (source registration.path) = some slot ∧
          router.register registration = base.put slot registration.routeData) := by
  have same : ((router.insert registration.path).getD router).methods = router.methods := by
    rw [Router.insert]
    split <;> rfl
  rw [Router.register]
  cases found : router.at (source registration.path) with
  | some slot => exact ⟨router, rfl, .inl rfl, .inr ⟨slot, found, rfl⟩⟩
  | none =>
      refine ⟨_, same, .inr ⟨rfl, rfl⟩, ?_⟩
      cases later : ((router.insert registration.path).getD router).at
          (source registration.path) with
      | some slot => exact .inr ⟨slot, rfl, by simp only [later]⟩
      | none => exact .inl ⟨rfl, by simp only [later]⟩

variable [DecidableEq Method]

theorem lookup_put (slot other : Pattern) (routeData : ApiRouter Method Handler)
    (method : Method) :
    ((router.put slot routeData).methods other).lookup method =
      if other = slot ∧ method = routeData.method then some routeData
      else (router.methods other).lookup method := by
  have updated : (router.put slot routeData).methods = Function.update router.methods slot
      ((routeData.method, routeData) :: router.methods slot) := rfl
  rw [updated]
  by_cases same : other = slot
  · subst same
    rw [Function.update_self, List.lookup_cons]
    by_cases asked : method = routeData.method
    · simp [asked]
    · rw [beq_false_of_ne asked, if_neg fun both => asked both.2]
  · rw [Function.update_of_ne same, if_neg fun both => same both.1]

/-- The router after the registrations, where none of them was captured. -/
structure Registered (done : List (Registration Method Handler)) (router : Router Method Handler) :
    Prop where
  mem_iff : ∀ pattern, pattern ∈ router.patterns ↔ pattern ∈ done.map (·.path)
  plain : ∀ pattern ∈ router.patterns, IsPlain pattern
  lookup_eq : ∀ pattern method, (router.methods pattern).lookup method =
    (done.find? fun earlier => earlier.key = (method, pattern)).map Registration.routeData

theorem registered_nil : Registered [] ({} : Router Method Handler) :=
  ⟨fun _ => Iff.rfl, fun _ member => absurd member List.not_mem_nil, fun _ _ => rfl⟩

theorem find?_append_key {done : List (Registration Method Handler)}
    (new : registration.key ∉ done.map Registration.key) (pattern : Pattern) (method : Method) :
    ((done ++ [registration]).find? fun earlier => earlier.key = (method, pattern)) =
      if pattern = registration.path ∧ method = registration.method then some registration
      else done.find? fun earlier => earlier.key = (method, pattern) := by
  rw [List.find?_append]
  by_cases own : pattern = registration.path ∧ method = registration.method
  · obtain ⟨rfl, rfl⟩ := own
    have absent : (done.find? fun earlier =>
        decide (earlier.key = (registration.method, registration.path))) = none := by
      rw [List.find?_eq_none]
      intro earlier listed same
      exact new (List.mem_map.2 ⟨earlier, listed, of_decide_eq_true same⟩)
    rw [absent, if_pos ⟨rfl, rfl⟩, Option.none_or]
    exact List.find?_cons_of_pos (decide_eq_true rfl)
  · have other : ([registration].find? fun earlier =>
        decide (earlier.key = (method, pattern))) = none := by
      rw [List.find?_eq_none]
      intro earlier listed same
      rw [List.mem_singleton.1 listed, decide_eq_true_eq, Registration.key,
        Prod.mk.injEq] at same
      exact own ⟨same.2.symm, same.1.symm⟩
    rw [other, if_neg own, Option.or_none]

/-- Putting the route under its own pattern is right wherever the pattern was listed. -/
theorem Registered.put {done : List (Registration Method Handler)}
    (registered : Registered done router) (new : registration.key ∉ done.map Registration.key)
    {before : Router Method Handler} (same : before.methods = router.methods)
    (mem_iff : ∀ pattern, pattern ∈ before.patterns ↔
      pattern ∈ (done ++ [registration]).map (·.path))
    (plain : ∀ pattern ∈ before.patterns, IsPlain pattern) :
    Registered (done ++ [registration])
      (before.put registration.path registration.routeData) := by
  refine ⟨fun pattern => ?_, plain, fun pattern method => ?_⟩
  · rw [patterns_put]
    exact mem_iff pattern
  · have ownMethod : registration.routeData.method = registration.method := rfl
    rw [lookup_put, ownMethod, find?_append_key new, same]
    by_cases own : pattern = registration.path ∧ method = registration.method
    · rw [if_pos own, if_pos own]
      rfl
    · rw [if_neg own, if_neg own]
      exact registered.lookup_eq pattern method

omit [DecidableEq Method] in
theorem register_of_at (found : router.at (source registration.path) = some registration.path) :
    router.register registration = router.put registration.path registration.routeData := by
  rw [Router.register, found]

omit [DecidableEq Method] in
theorem register_of_insert {added : Router Method Handler}
    (missed : router.at (source registration.path) = none)
    (inserted : router.insert registration.path = some added)
    (found : added.at (source registration.path) = some registration.path) :
    router.register registration = added.put registration.path registration.routeData := by
  rw [Router.register, missed]
  simp only [inserted, Option.getD_some, found]

/-- A registration that is not captured. -/
theorem Registered.register {done : List (Registration Method Handler)}
    (registered : Registered done router)
    (compatible : Compatible ((done ++ [registration]).map (·.path)))
    (new : registration.key ∉ done.map Registration.key)
    (free : IsFree (done.map (·.path)) registration.path) :
    Registered (done ++ [registration]) (router.register registration) := by
  have inside : router.patterns ⊆ (done ++ [registration]).map (·.path) := by
    intro pattern listed
    rw [List.map_append]
    exact List.mem_append_left _ ((registered.mem_iff pattern).1 listed)
  have member : registration.path ∈ (done ++ [registration]).map (·.path) := by simp
  by_cases present : registration.path ∈ router.patterns
  · rw [register_of_at (at_source_of_mem compatible inside registered.plain present)]
    apply registered.put new rfl
    · intro pattern
      rw [registered.mem_iff, List.map_append, List.mem_append]
      refine ⟨.inl, fun either => either.elim id fun own => ?_⟩
      rw [List.map_singleton, List.mem_singleton] at own
      exact own ▸ (registered.mem_iff _).1 present
    · exact registered.plain
  · obtain ⟨plain, unmatched⟩ :=
      free.resolve_left fun earlier => present ((registered.mem_iff _).2 earlier)
    have missed : router.at (source registration.path) = none :=
      best_eq_none_iff.2 fun pattern listed =>
        unmatched pattern ((registered.mem_iff pattern).1 listed)
    have allPlain : ∀ pattern ∈ router.patterns ++ [registration.path], IsPlain pattern :=
      List.forall_mem_append.2 ⟨registered.plain, List.forall_mem_singleton.2 plain⟩
    have allInside : router.patterns ++ [registration.path] ⊆
        (done ++ [registration]).map (·.path) :=
      List.append_subset.2 ⟨inside, List.cons_subset.2 ⟨member, List.nil_subset _⟩⟩
    rw [register_of_insert missed (insert_of_notMem compatible inside member present)]
    · apply registered.put new
      · rfl
      · intro pattern
        rw [List.map_append, List.mem_append, List.mem_append, registered.mem_iff]
        rfl
      · exact allPlain
    · apply at_source_of_mem compatible allInside allPlain
      exact List.mem_append_right _ (List.mem_singleton_self _)

/-! ### All the registrations -/

omit [DecidableEq Method] in
theorem isFree_congr {before others : List Pattern} (same : ∀ pattern, pattern ∈ before ↔
    pattern ∈ others) (pattern : Pattern) : IsFree before pattern ↔ IsFree others pattern := by
  rw [IsFree, IsFree, same]
  exact or_congr_right (and_congr_right fun _ => forall_congr' fun earlier => by rw [same])

omit [DecidableEq Method] in
theorem neverCaptured_append_singleton {before : List Pattern}
    {done : List (Method × Pattern)} {key : Method × Pattern} :
    NeverCaptured before (done ++ [key]) ↔
      NeverCaptured before done ∧ IsFree (done.map (·.2) ++ before) key.2 := by
  induction done generalizing before with
  | nil => exact ⟨fun free => ⟨trivial, free.1⟩, fun both => ⟨both.2, trivial⟩⟩
  | cons first done inductionHypothesis =>
      rw [List.cons_append, NeverCaptured, NeverCaptured, inductionHypothesis, and_assoc]
      refine and_congr_right fun _ => and_congr_right fun _ => isFree_congr (fun pattern => ?_) _
      simp only [List.mem_append, List.mem_cons, List.map_cons]
      tauto

/-- Registrations that are never captured leave the router as they mean it. -/
theorem registered_registerAll {registrations : List (Registration Method Handler)}
    (compatible : Compatible (registrations.map (·.path)))
    (distinct : (registrations.map Registration.key).Nodup)
    (free : NeverCaptured [] (registrations.map Registration.key)) :
    Registered registrations (registerAll registrations) := by
  induction registrations using List.reverseRecOn with
  | nil => exact registered_nil
  | append_singleton done registration inductionHypothesis =>
      rw [List.map_append, List.map_singleton, neverCaptured_append_singleton] at free
      rw [List.map_append, List.nodup_append] at distinct
      rw [registerAll, List.foldl_append]
      have inside : done.map (·.path) ⊆ (done ++ [registration]).map (·.path) := by
        rw [List.map_append]
        exact List.subset_append_left _ _
      apply (inductionHypothesis (compatible.subset inside) distinct.1 free.1).register compatible
      · intro listed
        exact distinct.2.2 _ listed _ (List.mem_singleton_self _) rfl
      · refine (isFree_congr (fun pattern => ?_) _).1 free.2
        rw [List.append_nil, List.map_map]
        rfl

theorem Registered.looksUpAll {registrations : List (Registration Method Handler)}
    (compatible : Compatible (registrations.map (·.path)))
    (registered : Registered registrations (registerAll registrations)) :
    LooksUpAll registrations := by
  intro method path
  have found : (registerAll registrations).at path =
      best isMatch rank (registrations.map (·.path)) path :=
    best_congr compatible.separates registered.mem_iff
  rw [Router.getRouter, found, specifiedRoute, Option.map_bind]
  congr 1
  funext pattern
  rw [Function.comp_apply, Option.map_map, registered.lookup_eq]
  exact congrFun Option.map_id _

/-! ### A captured route is found under another pattern -/

/-- Routes with the flag are kept under one pattern only. -/
def OnlyMarked (slot : Pattern) (router : Router Method Handler) : Prop :=
  ∀ pattern method routeData, (router.methods pattern).lookup method = some routeData →
    routeData.auth = true → pattern = slot

theorem OnlyMarked.put {slot other : Pattern} {routeData : ApiRouter Method Handler}
    (marked : OnlyMarked slot router) (fits : routeData.auth = true → other = slot) :
    OnlyMarked slot (router.put other routeData) := by
  intro pattern method found lookedUp auth
  rw [lookup_put] at lookedUp
  by_cases own : pattern = other ∧ method = routeData.method
  · rw [if_pos own] at lookedUp
    cases lookedUp
    exact own.1.trans (fits auth)
  · rw [if_neg own] at lookedUp
    exact marked pattern method found lookedUp auth

theorem OnlyMarked.register {slot : Pattern} (marked : OnlyMarked slot router)
    (unmarked : registration.auth = false) : OnlyMarked slot (router.register registration) := by
  obtain ⟨base, same, -, ⟨-, registered⟩ | ⟨other, -, registered⟩⟩ :=
    register_cases router registration
  · rw [registered, OnlyMarked, same]
    exact marked
  · have kept : OnlyMarked slot base := by
      rw [OnlyMarked, same]
      exact marked
    rw [registered]
    refine kept.put fun auth => ?_
    rw [Registration.routeData, unmarked] at auth
    cases auth

theorem OnlyMarked.foldl {slot : Pattern} {registrations : List (Registration Method Handler)}
    (marked : OnlyMarked slot router)
    (unmarked : ∀ registration ∈ registrations, registration.auth = false) :
    OnlyMarked slot (registrations.foldl Router.register router) := by
  induction registrations generalizing router with
  | nil => exact marked
  | cons registration registrations inductionHypothesis =>
      rw [List.forall_mem_cons] at unmarked
      exact inductionHypothesis (marked.register unmarked.1) unmarked.2

omit [DecidableEq Method] in
theorem patterns_register_subset (router : Router Method Handler)
    (registration : Registration Method Handler) :
    (router.register registration).patterns ⊆ router.patterns ++ [registration.path] := by
  have inserted : ((router.insert registration.path).getD router).patterns ⊆
      router.patterns ++ [registration.path] := by
    rw [Router.insert]
    split
    · exact List.subset_append_left _ _
    · exact List.Subset.refl _
  obtain ⟨base, -, rfl | ⟨-, rfl⟩, ⟨-, registered⟩ | ⟨slot, -, registered⟩⟩ :=
    register_cases router registration
  · rw [registered]
    exact List.subset_append_left _ _
  · rw [registered, patterns_put]
    exact List.subset_append_left _ _
  · rw [registered]
    exact inserted
  · rw [registered, patterns_put]
    exact inserted

omit [DecidableEq Method] in
theorem patterns_registerAll_subset (registrations : List (Registration Method Handler)) :
    (registerAll registrations).patterns ⊆ registrations.map (·.path) := by
  induction registrations using List.reverseRecOn with
  | nil => exact List.Subset.refl _
  | append_singleton done registration inductionHypothesis =>
      rw [registerAll, List.foldl_append, List.map_append]
      refine List.Subset.trans (patterns_register_subset _ _) ?_
      intro pattern listed
      rcases List.mem_append.1 listed with earlier | own
      · exact List.mem_append_left _ (inductionHypothesis earlier)
      · exact List.mem_append_right _ own

/-- A registration that is not free does not put its route under its own pattern. -/
theorem exists_onlyMarked_register {done : List (Registration Method Handler)}
    (registered : Registered done router)
    (unmarked : ∀ earlier ∈ done, earlier.auth = false)
    (captured : ¬ IsFree (done.map (·.path)) registration.path) :
    ∃ slot, slot ≠ registration.path ∧ OnlyMarked slot (router.register registration) := by
  have before : ∀ slot, OnlyMarked slot router := by
    intro slot pattern method routeData lookedUp auth
    rw [registered.lookup_eq, Option.map_eq_some_iff] at lookedUp
    obtain ⟨earlier, found, rfl⟩ := lookedUp
    rw [Registration.routeData, unmarked earlier (List.mem_of_find?_eq_some found)] at auth
    cases auth
  rw [IsFree, not_or] at captured
  have new : registration.path ∉ router.patterns := fun listed =>
    captured.1 ((registered.mem_iff _).1 listed)
  obtain ⟨base, same, origin, ⟨-, put⟩ | ⟨slot, found, put⟩⟩ := register_cases router registration
  · refine ⟨.static [] :: registration.path, List.cons_ne_self _ _, ?_⟩
    rw [put, OnlyMarked, same]
    exact before _
  · refine ⟨slot, ?_, ?_⟩
    · rintro rfl
      have isBest := isBest_of_best found
      rcases origin with rfl | ⟨missed, rfl⟩
      · exact new isBest.mem
      · -- then the pattern is plain and no pattern that was there matches its text
        refine captured.2 ⟨isMatch_source_iff.1 isBest.matches_path, fun earlier listed => ?_⟩
        exact best_eq_none_iff.1 missed earlier ((registered.mem_iff _).2 listed)
    · have kept : OnlyMarked slot base := by
        rw [OnlyMarked, same]
        exact before slot
      rw [put]
      exact kept.put fun _ => rfl

/-- The registrations of some keys, only one of them with the flag. -/
def markedRegistrations (handler : Handler) (marked : Method × Pattern)
    (keys : List (Method × Pattern)) : List (Registration Method Handler) :=
  keys.map fun key => { method := key.1, path := key.2, auth := decide (key = marked), handler }

theorem map_key_markedRegistrations (handler : Handler) (marked : Method × Pattern)
    (keys : List (Method × Pattern)) :
    (markedRegistrations handler marked keys).map Registration.key = keys := by
  rw [markedRegistrations, List.map_map]
  exact List.map_id _

theorem map_path_markedRegistrations (handler : Handler) (marked : Method × Pattern)
    (keys : List (Method × Pattern)) :
    (markedRegistrations handler marked keys).map (·.path) = keys.map (·.2) := by
  rw [markedRegistrations, List.map_map]
  rfl

theorem specifiedRoute_of_isBest {registrations : List (Registration Method Handler)}
    (compatible : Compatible (registrations.map (·.path))) {path : Path} {pattern : Pattern}
    (isBest : IsBest isMatch rank (registrations.map (·.path)) path pattern) (method : Method) :
    specifiedRoute registrations method path =
      (registrations.find? fun registration => registration.key = (method, pattern)).map
        Registration.routeData := by
  rw [specifiedRoute, (best_eq_some_iff compatible.separates).2 isBest]
  rfl

/-- The flag of a route that is looked up tells whether its key is the marked one. -/
theorem auth_of_find?_markedRegistrations {handler : Handler} {marked key : Method × Pattern}
    {keys : List (Method × Pattern)} {routeData : ApiRouter Method Handler}
    (found : ((markedRegistrations handler marked keys).find? fun registration =>
      registration.key = key).map Registration.routeData = some routeData) :
    routeData.auth = decide (key = marked) := by
  obtain ⟨registration, searched, rfl⟩ := Option.map_eq_some_iff.1 found
  have same : registration.key = key := by simpa using List.find?_some searched
  obtain ⟨other, -, rfl⟩ := List.mem_map.1 (List.mem_of_find?_eq_some searched)
  rw [← same]
  rfl

theorem auth_of_mem_markedRegistrations {handler : Handler} {marked : Method × Pattern}
    {keys : List (Method × Pattern)} (absent : marked ∉ keys) :
    ∀ registration ∈ markedRegistrations handler marked keys, registration.auth = false := by
  intro registration listed
  obtain ⟨key, also, rfl⟩ := List.mem_map.1 listed
  exact decide_eq_false fun same => absent (same ▸ also)

/-- A route that is captured is kept under another pattern to the end. -/
theorem exists_onlyMarked_registerAll (handler : Handler) {done later : List (Method × Pattern)}
    {key : Method × Pattern} (compatible : Compatible ((done ++ key :: later).map (·.2)))
    (distinct : (done ++ key :: later).Nodup) (free : NeverCaptured [] done)
    (captured : ¬ IsFree (done.map (·.2)) key.2) :
    ∃ slot, slot ≠ key.2 ∧ OnlyMarked slot
      (registerAll (markedRegistrations handler key (done ++ key :: later))) := by
  have unlisted : key ∉ done ++ later := (List.nodup_middle.1 distinct).notMem
  rw [List.mem_append, not_or] at unlisted
  have registered : Registered (markedRegistrations handler key done)
      (registerAll (markedRegistrations handler key done)) := by
    apply registered_registerAll
    · rw [map_path_markedRegistrations]
      refine compatible.subset ?_
      rw [List.map_append]
      exact List.subset_append_left _ _
    · rw [map_key_markedRegistrations]
      exact (List.nodup_append.1 distinct).1
    · rw [map_key_markedRegistrations]
      exact free
  let own : Registration Method Handler :=
    { method := key.1, path := key.2, auth := decide (key = key), handler }
  obtain ⟨slot, other, marked⟩ := @exists_onlyMarked_register _ _ _ own _ _ registered
    (auth_of_mem_markedRegistrations unlisted.1) (by rwa [map_path_markedRegistrations])
  refine ⟨slot, other, ?_⟩
  have split : markedRegistrations handler key (done ++ key :: later) =
      markedRegistrations handler key done ++ own :: markedRegistrations handler key later :=
    List.map_append
  rw [split, registerAll, List.foldl_append, List.foldl_cons, ← registerAll]
  exact marked.foldl (auth_of_mem_markedRegistrations unlisted.2)

/-- On a path of its own pattern the marked route is found, so some pattern has it. -/
theorem exists_stored_of_looksUpAll {handler : Handler} {keys : List (Method × Pattern)}
    {key : Method × Pattern}
    (compatible : Compatible ((markedRegistrations handler key keys).map (·.path)))
    (listed : key ∈ keys) (looksUp : LooksUpAll (markedRegistrations handler key keys))
    {path : Path}
    (isBest : IsBest isMatch rank ((markedRegistrations handler key keys).map (·.path)) path
      key.2) :
    ∃ slot stored, (registerAll (markedRegistrations handler key keys)).at path = some slot ∧
      ((registerAll (markedRegistrations handler key keys)).methods slot).lookup key.1 =
        some stored ∧ stored.auth = true := by
  obtain ⟨routeData, foundRoute⟩ : ∃ routeData,
      ((markedRegistrations handler key keys).find? fun registration =>
        registration.key = key).map Registration.routeData = some routeData := by
    rw [← Option.isSome_iff_exists, Option.isSome_map, List.find?_isSome]
    exact ⟨_, List.mem_map.2 ⟨key, listed, rfl⟩, decide_eq_true rfl⟩
  have here := looksUp key.1 path
  rw [specifiedRoute_of_isBest compatible isBest, foundRoute] at here
  obtain ⟨found, foundAt, same⟩ := Option.map_eq_some_iff.1 here
  obtain ⟨slot, atSlot, lookedUp⟩ := Option.bind_eq_some_iff.1 foundAt
  obtain ⟨stored, storedAt, rfl⟩ := Option.map_eq_some_iff.1 lookedUp
  cases same
  refine ⟨slot, _, atSlot, storedAt, ?_⟩
  exact (auth_of_find?_markedRegistrations foundRoute).trans (decide_eq_true rfl)

theorem isFree_of_looksUpAll (handler : Handler) {done later : List (Method × Pattern)}
    {key : Method × Pattern} (compatible : Compatible ((done ++ key :: later).map (·.2)))
    (distinct : (done ++ key :: later).Nodup) (free : NeverCaptured [] done)
    (looksUp : LooksUpAll (markedRegistrations handler key (done ++ key :: later))) :
    IsFree (done.map (·.2)) key.2 := by
  by_contra captured
  obtain ⟨slot, other, marked⟩ :=
    exists_onlyMarked_registerAll handler compatible distinct free captured
  have listed : key ∈ done ++ key :: later := List.mem_append_right _ List.mem_cons_self
  generalize done ++ key :: later = keys at compatible looksUp marked listed
  rw [← map_path_markedRegistrations handler key keys] at compatible
  have member : key.2 ∈ (markedRegistrations handler key keys).map (·.path) := by
    rw [map_path_markedRegistrations]
    exact List.mem_map_of_mem listed
  obtain ⟨path, isBest⟩ := exists_isBest member
  obtain ⟨slotHere, stored, atSlot, storedAt, auth⟩ :=
    exists_stored_of_looksUpAll compatible listed looksUp isBest
  obtain rfl := marked slotHere key.1 stored storedAt auth
  -- so it is found on a path of the other pattern, where another one or none is meant
  have inside := patterns_registerAll_subset (markedRegistrations handler key keys)
  have present := (isBest_of_best atSlot).mem
  obtain ⟨otherPath, otherBest⟩ := exists_isBest (inside present)
  have there := looksUp key.1 otherPath
  have atOther : (registerAll (markedRegistrations handler key keys)).at otherPath =
      some slotHere :=
    (best_eq_some_iff (compatible.subset inside).separates).2 (otherBest.subset inside present)
  rw [specifiedRoute_of_isBest compatible otherBest, Router.getRouter, atOther, Option.bind_some,
    storedAt] at there
  have otherAuth := auth_of_find?_markedRegistrations there.symm
  rw [auth, eq_comm, decide_eq_true_eq] at otherAuth
  exact other (congrArg Prod.snd otherAuth)

end

/-! ### Lookups are right exactly where nothing is captured -/

/-- For every list of distinct methods and compatible patterns, in the order in which they
are registered: whatever their handlers and flags, every lookup gives the route of its
method under the most specific pattern that matches, if and only if no new pattern is
captured by an earlier one. -/
theorem looksUpAll_iff {Method Handler : Type} [DecidableEq Method] [Nonempty Handler]
    {keys : List (Method × Pattern)} (distinct : keys.Nodup)
    (compatible : Compatible (keys.map (·.2))) :
    (∀ registrations : List (Registration Method Handler),
        registrations.map Registration.key = keys → LooksUpAll registrations) ↔
      NeverCaptured [] keys := by
  constructor
  · intro looksUp
    obtain ⟨handler⟩ := ‹Nonempty Handler›
    have all : ∀ later done, keys = done ++ later → NeverCaptured [] done →
        NeverCaptured [] keys := by
      intro later
      induction later with
      | nil =>
          intro done equality free
          rwa [equality, List.append_nil]
      | cons key later inductionHypothesis =>
          intro done equality free
          subst equality
          apply inductionHypothesis (done ++ [key])
          · rw [List.append_assoc, List.singleton_append]
          · rw [neverCaptured_append_singleton, List.append_nil]
            exact ⟨free, isFree_of_looksUpAll handler compatible distinct free
              (looksUp _ (map_key_markedRegistrations handler key _))⟩
    exact all keys [] rfl trivial
  · rintro free registrations rfl
    have paths : (registrations.map Registration.key).map (·.2) = registrations.map (·.path) :=
      List.map_map
    rw [paths] at compatible
    exact (registered_registerAll compatible distinct free).looksUpAll compatible

inductive HttpMethod where
  | get
  | post
  | put
  | delete
deriving DecidableEq

def apiDomain (last : Segment) : Pattern :=
  [.static [], .static "api".toList, .static "domain".toList, last]

theorem looksUpAll_example :
    (∀ registrations : List (Registration HttpMethod Nat),
        registrations.map Registration.key =
          [(.get, apiDomain (.static "count".toList)), (.get, apiDomain (.param "id".toList)),
            (.delete, apiDomain (.param "id".toList))] → LooksUpAll registrations) ↔
      NeverCaptured []
        [(HttpMethod.get, apiDomain (.static "count".toList)),
          (.get, apiDomain (.param "id".toList)), (.delete, apiDomain (.param "id".toList))] :=
  looksUpAll_iff (by decide) (by decide)

/-- The parameter first: its slot takes the route of the static pattern. -/
def parameterFirst : List (Registration HttpMethod Nat) := [
  { method := .get, path := apiDomain (.param "id".toList), auth := true, handler := 1 },
  { method := .get, path := apiDomain (.static "count".toList), auth := false, handler := 2 }]

theorem not_looksUpAll :
    ¬ ∀ registrations : List (Registration HttpMethod Nat),
      (registrations.map Registration.key).Nodup → Compatible (registrations.map (·.path)) →
        LooksUpAll registrations := by
  intro looksUp
  have number := looksUp parameterFirst (by decide) (by decide) .get
    ["".toList, "api".toList, "domain".toList, "7".toList]
  have handlers := congrArg (Option.map ApiRouter.handler) number
  exact absurd handlers (by decide)

end SmartDnsPlusUi.Api
