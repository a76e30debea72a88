import SmartDnsPlusUi.Config.KeptSettings

/-!
# Settings that stay steady

The conditions under which every page writes the settings as they were read
hold again for what a save wrote, so one save after the other only adds the
entries of the user's own text.
-/

namespace SmartDnsPlusUi

open Text

/-! ### Counting the saves -/

section

variable {Item : Type} (items : List Item)

theorem repeated_succ (n : Nat) : repeated (n + 1) items = items ++ repeated n items := by
  simp [repeated, List.replicate_succ]

theorem repeated_append_self (n : Nat) : repeated n items ++ items = items ++ repeated n items := by
  induction n with
  | zero => simp [repeated]
  | succ n inductionHypothesis =>
      rw [repeated_succ, List.append_assoc, inductionHypothesis]

end

theorem DriftsBy.refl (before after config : BeginnerConfig) :
    DriftsBy 0 before after config config := by
  constructor <;> simp [repeated]

theorem DriftsBy.next {n : Nat} {before after config again third : BeginnerConfig}
    (drifts : DriftsBy n before after config again) (step : DriftsBy 1 before after again third) :
    DriftsBy (n + 1) before after config third := by
  obtain ⟨binds, upstreams, lists, extras, others⟩ := step
  constructor
  · rw [binds, drifts.binds, repeated_one, repeated_one, repeated_succ, repeated_succ,
      ← repeated_append_self after.binds]
    simp only [List.append_assoc]
  · rw [repeated_succ, List.append_assoc]
    rw [repeated_one] at upstreams
    exact upstreams.trans (drifts.upstreams.append_left _)
  · intro key list
    rw [lists key list, drifts.lists key list, repeated_one, repeated_one, repeated_succ,
      repeated_succ, ← repeated_append_self (splitListExtra after key)]
    simp only [List.append_assoc]
  · intro key noList
    exact (extras key noList).trans (drifts.extras key noList)
  · rw [← drifts.others, ← others]

/-! ### When nothing is added -/

/-- The same settings, with the upstream servers in any order. -/
structure SameSettings (config other : BeginnerConfig) : Prop where
  upstreams : config.upstreams.Perm other.upstreams
  others : { config with upstreams := other.upstreams } = other

/-- A text with these settings has neither listeners nor upstream servers nor list entries. -/
structure AddsNothing (own : BeginnerConfig) : Prop where
  binds : own.binds = []
  upstreams : own.upstreams = []
  lists : ∀ key, beginnerKeyword key = .listExtra → splitListExtra own key = []

/-- The lists are their entries, each on a line. -/
def ListsAsRead (config : BeginnerConfig) : Prop :=
  ∀ key, beginnerKeyword key = .listExtra → config.extras key =
    if splitListExtra config key = [] then none
    else some (join ['\n'] (splitListExtra config key))

theorem repeated_nil {Item : Type} (n : Nat) : repeated n ([] : List Item) = [] := by
  simp [repeated]

theorem length_repeated {Item : Type} (n : Nat) (items : List Item) :
    (repeated n items).length = n * items.length := by
  simp [repeated]

/-- Something that is added makes the list longer. -/
theorem eq_nil_of_length_eq {Item : Type} {n : Nat} (some : 0 < n) {before after items : List Item}
    (same : (repeated n before ++ items ++ repeated n after).length = items.length) :
    before = [] ∧ after = [] := by
  simp only [List.length_append, length_repeated] at same
  have none : n * before.length = 0 ∧ n * after.length = 0 := by omega
  rw [Nat.mul_eq_zero, Nat.mul_eq_zero] at none
  exact ⟨List.length_eq_zero_iff.mp (none.1.resolve_left some.ne'),
    List.length_eq_zero_iff.mp (none.2.resolve_left some.ne')⟩

theorem DriftsBy.sameSettings_iff {n : Nat} {before after config again : BeginnerConfig}
    (drifts : DriftsBy n before after config again) (some : 0 < n) (asRead : ListsAsRead config)
    (asReadAgain : ListsAsRead again) :
    SameSettings again config ↔ AddsNothing before ∧ AddsNothing after := by
  constructor
  · rintro ⟨upstreams, others⟩
    have binds : again.binds = config.binds := by rw [← others]
    have lists : ∀ key, splitListExtra again key = splitListExtra config key := by
      intro key
      rw [← others]
      rfl
    rw [drifts.binds] at binds
    obtain ⟨noBinds, noBinds'⟩ := eq_nil_of_length_eq some (congrArg List.length binds)
    have servers : before.upstreams = [] ∧ after.upstreams = [] := by
      have lengths := (drifts.upstreams.symm.trans upstreams).length_eq
      have none := @eq_nil_of_length_eq _ _ some _ [] config.upstreams
        (by simpa [repeated_nil] using lengths)
      exact List.append_eq_nil_iff.mp none.1
    have entries : ∀ key, beginnerKeyword key = .listExtra →
        splitListExtra before key = [] ∧ splitListExtra after key = [] := by
      intro key list
      have same := lists key
      rw [drifts.lists key list] at same
      exact eq_nil_of_length_eq some (congrArg List.length same)
    exact ⟨⟨noBinds, servers.1, fun key list => (entries key list).1⟩,
      ⟨noBinds', servers.2, fun key list => (entries key list).2⟩⟩
  · rintro ⟨nothing, nothing'⟩
    have upstreams : again.upstreams.Perm config.upstreams := by
      have same := drifts.upstreams
      rwa [nothing.upstreams, nothing'.upstreams, List.append_nil, repeated_nil,
        List.nil_append] at same
    have extras : again.extras = config.extras := by
      funext key
      by_cases list : beginnerKeyword key = .listExtra
      · have entries := drifts.lists key list
        rw [nothing.lists key list, nothing'.lists key list, repeated_nil, List.nil_append,
          List.append_nil] at entries
        rw [asRead key list, asReadAgain key list, entries]
      · exact drifts.extras key list
    have binds : again.binds = config.binds := by
      rw [drifts.binds, nothing.binds, nothing'.binds, repeated_nil, List.nil_append,
        List.append_nil]
    refine ⟨upstreams, ?_⟩
    conv_rhs => rw [← drifts.others]
    rw [← binds, ← extras]

/-! ### The conditions after a save -/

theorem exists_scalar_value (config : BeginnerConfig) : ∀ keyword ∈ scalarKeywords,
    ∃ value, fieldValues config keyword = [value] ∧ value ≠ [] := by
  have full : ∀ value defaultValue : Text, defaultValue ≠ [] →
      orDefaultValue value defaultValue ≠ [] := by
    intro value defaultValue nonempty
    rw [orDefaultValue]
    split
    · exact nonempty
    · assumption
  intro keyword listed
  simp only [scalarKeywords, List.mem_cons, List.not_mem_nil, or_false] at listed
  rcases listed with rfl | rfl | rfl | rfl | rfl <;>
    exact ⟨_, rfl, full _ _ (by decide)⟩

section

variable {before managed after rules saved : List Directive}
  (keeps : KeepsSettings before managed after rules)
  (fitting : ∀ directive ∈ before ++ managed ++ after, FitsDirective directive)
  (reads : ReadsSaved before managed after rules saved)

include keeps fitting reads

theorem KeepsSettings.mem_binds_again :
    ∀ value ∈ valuesOf .bind (before ++ saved ++ after),
      value ∈ valuesOf .bind (before ++ managed ++ after) := by
  have written := keeps.binds_saved fitting reads.lists
  intro value membership
  rw [valuesOf_append, valuesOf_append, written] at membership
  simp only [valuesOf_append, List.mem_append] at membership ⊢
  tauto

theorem KeepsSettings.mem_arguments_again {key : String}
    (list : beginnerKeyword key = .listExtra) :
    ∀ value ∈ argumentsOf key (before ++ saved ++ after),
      value ∈ argumentsOf key (before ++ managed ++ after) := by
  have written := keeps.lists_saved fitting reads.lists list
  intro value membership
  rw [argumentsOf_append, argumentsOf_append, written] at membership
  simp only [argumentsOf_append, List.mem_append] at membership ⊢
  tauto

theorem KeepsSettings.splitListExtra_again {key : String}
    (list : beginnerKeyword key = .listExtra) :
    splitListExtra (settingsOf (before ++ saved ++ after)) key =
      argumentsOf key (before ++ saved ++ after) := by
  apply splitListExtra_settingsOf list
  intro value membership
  exact keeps.isEntry fitting list value (keeps.mem_arguments_again fitting reads list value membership)

omit reads in
theorem KeepsSettings.listsAsRead : ListsAsRead (settingsOf (before ++ managed ++ after)) := by
  intro key list
  rw [keeps.splitListExtra_eq fitting list]
  exact lastExtra_eq_join list _

/-- What the rows write after a save, they wrote in it. -/
theorem KeepsSettings.mem_values_again : ∀ row ∈ settingRows,
    ∀ value ∈ row.values (settingsOf (before ++ saved ++ after)),
      value ∈ row.values (settingsOf (before ++ managed ++ after)) := by
  have drifts := keeps.drifts fitting reads
  have extra : ∀ key, beginnerKeyword key = .extra →
      extraValues (settingsOf (before ++ saved ++ after)) key =
        extraValues (settingsOf (before ++ managed ++ after)) key := by
    intro key extra
    have noList : beginnerKeyword key ≠ .listExtra := by simp [extra]
    rw [extraValues, extraValues, drifts.extras key noList]
  have list : ∀ key, beginnerKeyword key = .listExtra →
      ∀ value ∈ splitListExtra (settingsOf (before ++ saved ++ after)) key,
        value ∈ splitListExtra (settingsOf (before ++ managed ++ after)) key := by
    intro key list value membership
    rw [keeps.splitListExtra_again fitting reads list] at membership
    rw [keeps.splitListExtra_eq fitting list]
    exact keeps.mem_arguments_again fitting reads list value membership
  intro row listed value membership
  have known := beginnerKeyword_of_mem_settingRows row listed
  cases row with
  | field keyword key =>
      clear known
      cases keyword with
      | bind =>
          have some : valuesOf .bind (before ++ saved ++ after) ≠ [] := by
            intro none
            rw [valuesOf_append, valuesOf_append, keeps.binds_saved fitting reads.lists] at none
            simp only [List.append_eq_nil_iff] at none
            exact keeps.some_bind none.1.2
          have now : writtenBinds (settingsOf (before ++ saved ++ after)) =
              valuesOf .bind (before ++ saved ++ after) := if_neg some
          have then_ : writtenBinds (settingsOf (before ++ managed ++ after)) =
              valuesOf .bind (before ++ managed ++ after) := if_neg keeps.some_bind
          simp only [SettingRow.values, fieldValues, filled, List.mem_map, List.mem_filter, now,
            then_] at membership ⊢
          obtain ⟨raw, ⟨rawMem, nonempty⟩, rfl⟩ := membership
          exact ⟨raw, ⟨keeps.mem_binds_again fitting reads raw rawMem, nonempty⟩, rfl⟩
      | serverName | cacheSize | serveExpiredTtl | responseMode | speedCheckMode | logLevel
      | prefetchDomain | serveExpired | dualstackIpSelection | mdnsLookup | auditEnable
      | upstream | listExtra | extra =>
          rw [← drifts.others]
          exact membership
  | extra key =>
      rw [SettingRow.values, ← extra key known]
      exact membership
  | switch key =>
      rw [SettingRow.values, ← extra key known]
      exact membership
  | list key => exact list key known value membership
  | certificate key =>
      rw [SettingRow.values] at membership ⊢
      split at membership
      · rename_i listens
        have listened : HasTlsListener (settingsOf (before ++ managed ++ after)) := by
          have kept : ∀ {key}, beginnerKeyword key = .listExtra →
              splitListExtra (settingsOf (before ++ saved ++ after)) key ≠ [] →
              splitListExtra (settingsOf (before ++ managed ++ after)) key ≠ [] := by
            intro key extra some
            obtain ⟨entry, entryMem⟩ := List.exists_mem_of_ne_nil _ some
            exact List.ne_nil_of_mem (list key extra entry entryMem)
          exact listens.imp (kept (by decide)) (kept (by decide))
        rw [if_pos listened, ← extra key known]
        exact membership
      · cases membership

/-- The conditions hold again for what was written. -/
theorem KeepsSettings.again : KeepsSettings before saved after rules where
  binds := by
    intro value membership
    exact keeps.binds value (keeps.mem_binds_again fitting reads value membership)
  some_bind := by
    intro none
    rw [valuesOf_append, valuesOf_append, keeps.binds_saved fitting reads.lists] at none
    simp only [List.append_eq_nil_iff] at none
    exact keeps.some_bind none.1.2
  upstreams := by
    intro upstream membership
    apply keeps.upstreams
    have written := reads.servers.mem_iff (a := upstream)
    simp only [List.flatMap_append, List.mem_append] at membership written ⊢
    tauto
  lists := by
    intro directive membership list
    by_cases empty : directive.value = []
    · simp [empty]
    · have listed : directive.value ∈ argumentsOf directive.key (before ++ saved ++ after) :=
        mem_argumentsOf_iff.mpr ⟨membership, empty⟩
      have loaded := keeps.mem_arguments_again fitting reads list _ listed
      exact keeps.lists _ (mem_argumentsOf_iff.mp loaded).1 list
  scalars := by
    intro keyword listed _ last
    have field : keyword ∉ [BeginnerKeyword.upstream, .listExtra, .extra] :=
      field_of_mem_scalarKeywords keyword listed
    obtain ⟨value, written, nonempty⟩ :=
      exists_scalar_value (settingsOf (before ++ managed ++ after)) keyword listed
    rw [valuesOf_append, reads.lists.valuesOf field, written, List.getLast?_concat] at last
    exact nonempty (Option.some.inj last)
  server_name := by
    intro unset last
    have unnamed : Trimmed [] ∧ '\n' ∉ [] := by decide
    have trimmed := (fits_lastValue fitting .serverName unnamed).1
    have read : valuesOf .serverName saved =
        filled [lastValue .serverName [] (before ++ managed ++ after)] :=
      reads.lists.valuesOf (by decide)
    rw [lastValue_append _ _ (before ++ managed), unset] at read trimmed
    rw [lastValue_append, read] at last
    simp only [List.getLast?_nil, Option.getD_none] at trimmed last
    apply keeps.server_name unset
    by_contra named
    simp [filled, trim_eq_self trimmed, named] at last
  switches := by
    intro key listed _ value found
    have extra : beginnerKeyword key = .extra := beginnerKeyword_of_mem_settingRows _ listed
    have written : argumentsOf key saved = (argumentsOf key (before ++ managed ++ after)).getLast?.toList.map
        fun value => yesno (parseYesno value false) := by
      rw [← extraValues_settingsOf fitting extra]
      exact reads.lists.argumentsOf (rowsFit_settingsOf fitting keeps.continued) listed
    rw [lastExtra_eq_getLast? extra, argumentsOf_append, written] at found
    cases last : (argumentsOf key (before ++ managed ++ after)).getLast? with
    | none =>
        rw [List.getLast?_eq_none_iff, argumentsOf_append, argumentsOf_append] at last
        simp only [List.append_eq_nil_iff] at last
        simp [last.1.1, argumentsOf_append, last] at found
    | some loaded =>
        rw [last, Option.toList_some, List.map_singleton, List.getLast?_concat] at found
        obtain rfl := Option.some.inj found
        cases parseYesno loaded false
        · exact .inr rfl
        · exact .inl rfl
  certificates := by
    intro silent key listed
    have quiet : ∀ list ∈ ["bind-tls", "bind-https"],
        splitListExtra (settingsOf (before ++ managed ++ after)) list = [] := by
      intro list membership
      have reads' : beginnerKeyword list = .listExtra := by
        rcases List.mem_pair.mp membership with rfl | rfl <;> rfl
      have none := silent list membership
      rw [argumentsOf_append, argumentsOf_append,
        keeps.lists_saved fitting reads.lists reads'] at none
      simp only [List.append_eq_nil_iff] at none
      rw [keeps.splitListExtra_eq fitting reads', none.1.2]
    have unheard : ¬ HasTlsListener (settingsOf (before ++ managed ++ after)) := by
      rintro (listens | listens)
      · exact listens (quiet _ (by decide))
      · exact listens (quiet _ (by decide))
    have none : argumentsOf key saved = [] := by
      have arguments := reads.lists.argumentsOf (rowsFit_settingsOf fitting keeps.continued) listed
      rwa [SettingRow.values, if_neg unheard] at arguments
    apply lastExtra_congr
    rw [argumentsOf_append, argumentsOf_append, argumentsOf_append, none, List.append_nil]
  unwritten := by
    intro key absent noAsset
    have none : argumentsOf key rules = [] := by
      apply argumentsOf_eq_nil
      rintro directive membership rfl
      exact noAsset (reads.assets directive membership)
    rw [reads.others key absent]
    apply lastExtra_congr
    rw [argumentsOf_append, argumentsOf_append, argumentsOf_append, none, List.append_nil]
  last_rules := by
    intro key asset
    rw [reads.others key asset.not_mem_rowKeys]
  continued := by
    intro row listed value membership
    exact keeps.continued row listed value
      (keeps.mem_values_again fitting reads row listed value membership)

end

/-! ### The pages of a save -/

theorem KeepsSettings.readsSaved {before managed after : List Directive} {rulesText : Text}
    (keeps : KeepsSettings before managed after (savedRules rulesText))
    (fitting : ∀ directive ∈ before ++ managed ++ after, FitsDirective directive)
    (accepted : (validateBeginnerConfig (settingsOf (before ++ managed ++ after))
      rulesText).ok = true) :
    ReadsSaved before managed after (savedRules rulesText)
      (savedDirectives ⟨settingsOf (before ++ managed ++ after), rulesText⟩) := by
  have fits := rowsFit_settingsOf fitting keeps.continued
  have some : (settingsOf (before ++ managed ++ after)).upstreams ≠ [] := by
    obtain ⟨upstream, membership, -⟩ := exists_upstream_of_ok accepted
    exact List.ne_nil_of_mem membership
  have servers : ∀ directive ∈
      directives (renderUpstreamsConfig (settingsOf (before ++ managed ++ after))),
      beginnerKeyword directive.key = .upstream := by
    rw [keeps.directives_upstreams fitting some]
    intro directive membership
    obtain ⟨upstream, -, rfl⟩ := List.mem_map.mp membership
    exact beginnerKeyword_upstreamLine upstream
  have perm := keeps.upstreams_perm fitting some
  generalize saving : SaveConfigRequest.mk (settingsOf (before ++ managed ++ after)) rulesText =
    request
  have beginner : settingsOf (before ++ managed ++ after) = request.beginner := by rw [← saving]
  have rules : rulesText = request.rulesText := by rw [← saving]
  rw [beginner] at fits servers perm
  constructor
  · rw [beginner]
    exact listsRows_savedDirectives fits servers
  · exact isAssetKey_of_mem_savedRules
  · rw [upstreams_savedDirectives fits]
    exact perm.trans (by rw [← beginner]; rfl)
  · intro key absent
    rw [lastExtra_savedDirectives fits servers before after absent, rules]

/-! ### The rules -/

theorem reloadedRulesText_of_reloads {saved reloaded : ManagedAssets}
    (reloads : Reloads saved reloaded) :
    reloadedRulesText reloaded = reloadedRulesText saved := by
  have routing : reloaded.routingItems.filter (·.ruleType = "nameserver") =
      saved.routingItems.filter (·.ruleType = "nameserver") := by
    rw [reloads.routing_items, List.filter_append, List.filter_filter, List.filter_filter]
    simp
  have entries : reloaded.routingItems.filter (·.ruleType ≠ "nameserver") =
      saved.routingItems.filter (·.ruleType ≠ "nameserver") := by
    rw [reloads.routing_items, List.filter_append, List.filter_filter, List.filter_filter]
    simp
  have ipLines : reloaded.ipRules.map ipRuleLine = saved.ipRules.map ipRuleLine := by
    have cores := congrArg (List.map IpRuleCore.line) reloads.ip_rules
    rw [List.map_map, List.map_map] at cores
    exact cores
  rw [reloadedRulesText, reloadedRulesText, renderRoutingItemsText, renderRoutingItemsText,
    renderRuleEntriesText, renderRuleEntriesText, renderSetsText, renderSetsText, routing,
    entries, ipLines, reloads.domain_sets, reloads.ip_sets]

/-- Rules that were reloaded once are reloaded as they are. -/
theorem Reloads.again {saved reloaded : ManagedAssets} (reloads : Reloads saved reloaded) :
    Reloads reloaded reloaded := by
  refine ⟨rfl, rfl, rfl, ?_⟩
  rw [reloads.routing_items, List.filter_append, List.filter_append]
  simp [List.filter_filter]

end SmartDnsPlusUi
