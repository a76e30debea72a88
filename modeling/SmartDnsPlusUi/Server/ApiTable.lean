import SmartDnsPlusUi.Server.ApiRoutes

/-!
# The table of the API

The routes that the API registers.  No pattern of it is captured by an earlier one, so every
request gets the route of its most specific pattern.
-/

namespace SmartDnsPlusUi.Api

/-- Braces stand around the names of parameters only. -/
def parseSegment : Text → Segment
  | '{' :: name => .param name.dropLast
  | part => .static part

def parsePattern (path : String) : Pattern := (path.toList.splitOn '/').map parseSegment

/-- The handler is named, not modelled. -/
def route (method : HttpMethod) (path : String) (auth : Bool) (handler : String) :
    Registration HttpMethod String where
  method := method
  path := parsePattern path
  auth := auth
  handler := handler

/-- `API::new`. -/
def apiNew : List (Registration HttpMethod String) := [
  route .put "/api/service/restart" true "api_service_restart",
  route .put "/api/cache/flush" true "api_cache_flush",
  route .get "/api/cache/count" true "api_cache_count",
  route .get "/api/cache/domains" true "api_cache_domains",
  route .post "/api/auth/login" false "api_auth_login",
  route .post "/api/auth/logout" false "api_auth_logout",
  route .get "/api/auth/check" true "api_auth_check",
  route .get "/api/plus/config" true "api_plus_get_config",
  route .post "/api/plus/save" true "api_plus_save",
  route .post "/api/plus/save-and-restart" true "api_plus_save_and_restart",
  route .get "/api/plus/backups" true "api_plus_backups",
  route .post "/api/plus/restore" true "api_plus_restore",
  route .get "/api/plus/templates" true "api_plus_templates",
  route .get "/api/plus/rule-sets/{name}" true "api_plus_rule_set_get",
  route .post "/api/plus/rule-sets/{name}" true "api_plus_rule_set_save",
  route .get "/api/plus/managed/assets" true "api_plus_managed_assets_get",
  route .post "/api/plus/managed/assets" true "api_plus_managed_assets_save",
  route .post "/api/plus/apply" true "api_plus_apply",
  route .get "/api/plus/ip-sets/{name}" true "api_plus_ip_set_get",
  route .post "/api/plus/ip-sets/{name}" true "api_plus_ip_set_save",
  route .put "/api/auth/password" true "api_auth_change_password",
  route .post "/api/auth/refresh" true "api_auth_refresh",
  route .get "/api/domain" true "api_domain_get_list",
  route .delete "/api/domain" true "api_domain_delete_list",
  route .get "/api/domain/count" true "api_domain_get_list_count",
  route .get "/api/domain/{id}" true "api_domain_get_by_id",
  route .delete "/api/domain/{id}" true "api_domain_delete_by_id",
  route .get "/api/client" true "api_client_get_list",
  route .delete "/api/client/{id}" true "api_client_delete_by_id",
  route .get "/api/log/stream" true "api_log_stream",
  route .put "/api/log/level" true "api_log_set_level",
  route .get "/api/log/level" true "api_log_get_level",
  route .get "/api/log/audit/stream" true "api_audit_log_stream",
  route .get "/api/server/version" false "api_server_version",
  route .get "/api/upstream-server" true "api_upstream_server_get_list",
  route .get "/api/config/settings" true "api_config_get_settings",
  route .put "/api/config/settings" true "api_config_set_settings",
  route .get "/api/stats/top/client" true "api_stats_get_top_client",
  route .get "/api/stats/top/domain" true "api_stats_get_top_domain",
  route .get "/api/stats/metrics" true "api_stats_get_metrics",
  route .get "/api/stats/overview" true "api_stats_get_overview",
  route .get "/api/stats/hourly-query-count" true "api_stats_get_hourly_query_count",
  route .get "/api/stats/daily-query-count" true "api_stats_get_daily_query_count",
  route .put "/api/stats/refresh" true "api_stats_refresh",
  route .get "/api/whois" true "api_whois",
  route .get "/api/tool/term" true "api_tool_term"]

instance (pattern : Pattern) : Decidable (IsPlain pattern) :=
  decidable_of_iff _ isMatch_source_iff

instance (before : List Pattern) (pattern : Pattern) : Decidable (IsFree before pattern) :=
  inferInstanceAs (Decidable (_ ∨ _))

instance {Method : Type} (before : List Pattern) (keys : List (Method × Pattern)) :
    Decidable (NeverCaptured before keys) := by
  induction keys generalizing before with
  | nil => exact isTrue trivial
  | cons key keys inductionHypothesis =>
      have _ := inductionHypothesis (key.2 :: before)
      exact inferInstanceAs (Decidable (IsFree before key.2 ∧ NeverCaptured (key.2 :: before) keys))

theorem checked_apiNew :
    (apiNew.map Registration.key).Nodup ∧ Compatible ((apiNew.map Registration.key).map (·.2)) ∧
      NeverCaptured [] (apiNew.map Registration.key) := by
  simp only [apiNew, route, parsePattern, Registration.key, List.map_cons, List.map_nil,
    String.reduceToList]
  decide +kernel

/-- Every request gets the route of its method under the most specific pattern. -/
theorem looksUpAll_apiNew : LooksUpAll apiNew := by
  obtain ⟨distinct, compatible, free⟩ := checked_apiNew
  have paths : (apiNew.map Registration.key).map (·.2) = apiNew.map (·.path) := List.map_map
  rw [paths] at compatible
  exact (registered_registerAll compatible distinct free).looksUpAll compatible

end SmartDnsPlusUi.Api
