import Mathlib.Data.List.AList
import PamDesktop.Foundations.HttpsUrl
import PamDesktop.Native.Database

/-!
# HTTP origins and the permission audit

`HttpServices` confines requests by the URLs that the parser makes of the configured origins;
`audit_network_and_processes` looks at the configured text. Read `audit_truthful_iff` for the texts
about which they agree.
-/

namespace PamDesktop.Shell.PermissionAudit

open Foundations Protocol Native

/-! ## URLs -/

/-- `Url`: the parts that the checks look at, and the text of `Url::as_str`. -/
structure Url extends OriginUrl where
  port : Option Nat
  path : String
  text : String

/-- `Url::parse`. -/
abbrev Parser := String → Except String Url

/-- `Url::origin` of a URL that has a host. -/
def Url.origin (url : Url) : String × Option UrlHost × Option Nat :=
  (url.scheme, url.host, url.port)

/-- The checks of a bootstrap with this parser. -/
def platform (build : Build) (parse : Parser) : Platform :=
  { build with parseOrigin := fun text => (parse text).map Url.toOriginUrl }

/-- The URL of the crate for a parsed URL of the scheme. -/
def Url.ofHttps (hosts : HostSyntax UrlHost) (url : HttpsUrl UrlHost) : Url where
  scheme := "https"
  host := some url.host
  username := String.ofList url.username
  password := if url.password = [] then none else some (String.ofList url.password)
  query := url.query.map String.ofList
  fragment := url.fragment.map String.ofList
  port := url.port
  path := String.ofList (HttpsUrl.pathText url.path)
  text := String.ofList (HttpsUrl.serialize hosts url)

/-- The parser follows the URL Standard where the scheme is `https`. -/
structure FollowsStandard (hosts : HostSyntax UrlHost) (parse : Parser) : Prop where
  lawful : hosts.Lawful
  https : ∀ text url, parse text = .ok url ∧ url.scheme = "https" ↔
    ∃ parsed, HttpsUrl.parse hosts text.toList = some parsed ∧ url = Url.ofHttps hosts parsed

/-! ## Requests -/

/-- `trim_end_matches('/')`. -/
def trimSlashes (text : String) : List Char := text.toList.rdropWhile (· == '/')

/-- `within_base` of `resolve_url`. -/
def withinBase (basePath path : List Char) : Bool :=
  basePath = [] || path = basePath || (path.dropPrefix? basePath).any (·.head? == some '/')

/-- `resolve_url`. -/
def resolveUrl (parse : Parser) (origin : Url) (path : String) : Except NativeError Url :=
  if path.toList.head? ≠ some '/' || path.toList.take 2 = ['/', '/'] ||
      path.toList.contains '#' then
    .error (.invalid "Native HTTP paths must begin with one slash and cannot contain fragments.")
  else
    match parse (String.ofList (trimSlashes origin.text ++ path.toList)) with
    | .error error => .error (.invalid ("The native HTTP path is invalid: " ++ error))
    | .ok url =>
        if url.origin ≠ origin.origin || !withinBase (trimSlashes origin.path) url.path.toList then
          .error (.permission "The native HTTP request escapes its declared origin.")
        else .ok url

/-- The origins of `HttpServices` by name. -/
abbrev HttpServices := AList fun _ : String => Url

/-- The loop of `HttpServices::prepare`. -/
def HttpServices.prepareFrom (platform : Platform) (parse : Parser) (origins : HttpServices) :
    List HttpOriginConfig → Except String HttpServices
  | [] => .ok origins
  | config :: rest => do
      config.validate platform
      match parse config.origin with
      | .error error =>
          .error ("cannot parse HTTP origin " ++ debugText config.name ++ ": " ++ error)
      | .ok url => prepareFrom platform parse (origins.insert config.name url) rest

/-- `HttpServices::prepare`. -/
def HttpServices.prepare (build : Build) (parse : Parser) (configs : List HttpOriginConfig) :
    Except String HttpServices :=
  prepareFrom (platform build parse) parse ∅ configs

/-- What `HttpServices::dispatch` makes of the origin and the path of a request. -/
def HttpServices.url (services : HttpServices) (parse : Parser) (origin path : String) :
    Except NativeError Url :=
  match services.lookup origin with
  | none => .error (.disabled ("HTTP origin " ++ debugText origin))
  | some origin => resolveUrl parse origin path

/-! ## The audit -/

/-- `Severity`. -/
inductive Severity where
  | info | warning | high | critical
deriving DecidableEq

/-- `Finding`. -/
structure Finding where
  severity : Severity
  rule : String
  resource : String
  message : String
  remediation : String
deriving DecidableEq

/-- `origin_base_path`. -/
def originBasePath (origin : String) : List Char :=
  let afterScheme := (origin.toList.dropPrefix? "https://".toList).getD origin.toList
  match afterScheme.dropWhile (· != '/') with
  | [] => ['/']
  | basePath => basePath

/-- The finding about a process command. -/
def processFinding (process : ProcessCommandConfig) : Finding where
  severity := if process.argumentPolicy = .append then .high else .warning
  rule := if process.argumentPolicy = .append then "process.dynamic-arguments"
    else "process.execution"
  resource := process.name
  message := if process.argumentPolicy = .append then
      "The renderer can append runtime arguments to a bundled executable."
    else "The renderer can launch a bundled executable with fixed arguments."
  remediation := "Prefer fixed arguments and validate all process inputs in a narrow PHP command."

/-- The finding about an origin without a base path. -/
def originFinding (origin : HttpOriginConfig) : Finding where
  severity := .warning
  rule := "http.origin-wide"
  resource := origin.name
  message := "The native HTTP capability allows every path on its HTTPS origin."
  remediation := "Declare the narrowest stable API base path instead of the origin root."

/-- `audit_network_and_processes`. -/
def auditNetworkAndProcesses (capabilities : NativeCapabilities) : List Finding :=
  (capabilities.httpOrigins.filter (originBasePath ·.origin = ['/'])).map originFinding ++
    capabilities.processes.map processFinding

/-! ## What the audit should say -/

/-- The audit reports the origin as origin-wide. -/
def Reported (capabilities : NativeCapabilities) (name : String) : Prop :=
  ∃ finding ∈ auditNetworkAndProcesses capabilities,
    finding.rule = "http.origin-wide" ∧ finding.resource = name

/-- Whatever the path of a URL with the same origin, some request reaches it. -/
def AdmitsEveryPath (parse : Parser) (services : HttpServices) (name : String) : Prop :=
  ∃ origin, services.lookup name = some origin ∧
    ∀ text target, parse text = .ok target → target.origin = origin.origin →
      ∃ path url, services.url parse name path = .ok url ∧ url.path = target.path

/-- After `https://`, if the text starts so, there is a slash with something behind it. -/
def InnerSlash (origin : String) : Prop :=
  ∃ before after, after ≠ [] ∧
    (origin.toList.dropPrefix? "https://".toList).getD origin.toList = before ++ '/' :: after

/-- The path in the text has a segment that is neither empty nor lost with the dots. -/
def Named (origin : String) : Prop :=
  ∃ segment ∈ HttpsUrl.segments (HttpsUrl.writtenPath origin.toList), segment ≠ []

/-! ## The configured text -/

theorem origin_base_path_iff (origin : String) :
    originBasePath origin = ['/'] ↔ ¬ InnerSlash origin := by
  unfold originBasePath InnerSlash
  generalize (origin.toList.dropPrefix? "https://".toList).getD origin.toList = text
  dsimp only
  have hsplit := List.takeWhile_append_dropWhile (p := (· != '/')) (l := text)
  cases hrest : text.dropWhile (· != '/') with
  | nil =>
      refine iff_of_true rfl fun ⟨before, after, _, htext⟩ => ?_
      subst htext
      have hslash := List.dropWhile_eq_nil_iff.mp hrest '/' (by simp)
      exact absurd hslash (by decide)
  | cons c rest =>
      have hc : c = '/' := by
        have hhead := List.head_dropWhile_not (· != '/') (l := text) (by simp [hrest])
        simpa [hrest] using hhead
      subst hc
      rw [hrest] at hsplit
      show '/' :: rest = ['/'] ↔ _
      rw [List.cons_eq_cons, and_iff_right rfl]
      constructor
      · intro hnothing ⟨before, after, hafter, htext⟩
        -- without the last character there is still the slash that something follows
        have hfront : text.takeWhile (· != '/') = before ++ '/' :: after.dropLast := by
          have hlast := congrArg List.dropLast (hsplit.trans htext)
          rwa [hnothing, List.dropLast_concat,
            List.dropLast_append_of_ne_nil (List.cons_ne_nil _ _),
            List.dropLast_cons_of_ne_nil hafter] at hlast
        have hslash : '/' ∈ text.takeWhile (· != '/') := by simp [hfront]
        exact absurd (List.mem_takeWhile_imp hslash) (by decide)
      · intro hinner
        by_contra hne
        exact hinner ⟨_, rest, hne, hsplit.symm⟩

/-- The audit reports an origin by what its text looks like. -/
theorem reported_iff {capabilities : NativeCapabilities}
    (hnames : (capabilities.httpOrigins.map (·.name)).Nodup) {config : HttpOriginConfig}
    (hconfig : config ∈ capabilities.httpOrigins) :
    Reported capabilities config.name ↔ originBasePath config.origin = ['/'] := by
  constructor
  · rintro ⟨finding, hfinding, hrule, hresource⟩
    rcases List.mem_append.mp hfinding with hfinding | hfinding
    · obtain ⟨other, hother, rfl⟩ := List.mem_map.mp hfinding
      obtain ⟨hmem, hbase⟩ := List.mem_filter.mp hother
      obtain rfl : other = config := List.inj_on_of_nodup_map hnames hmem hconfig hresource
      exact of_decide_eq_true hbase
    · obtain ⟨process, -, rfl⟩ := List.mem_map.mp hfinding
      unfold processFinding at hrule
      dsimp only at hrule
      split at hrule <;> exact absurd hrule (by decide)
  · intro hbase
    refine ⟨originFinding config, List.mem_append_left _ (List.mem_map_of_mem ?_), rfl, rfl⟩
    exact List.mem_filter.mpr ⟨hconfig, decide_eq_true hbase⟩

/-! ## Configured origins -/

/-- A configured origin that passed the checks, as the standard parses it. -/
structure Configured (hosts : HostSyntax UrlHost) (parse : Parser) (config : HttpOriginConfig)
    (parsed : HttpsUrl UrlHost) : Prop where
  written : HttpsUrl.parse hosts config.origin.toList = some parsed
  crate : parse config.origin = .ok (Url.ofHttps hosts parsed)
  bare : parsed.username = [] ∧ parsed.password = [] ∧ parsed.query = none ∧
    parsed.fragment = none

variable {build : Build} {hosts : HostSyntax UrlHost} {parse : Parser}

theorem of_list_empty {text : List Char} (h : String.ofList text = "") : text = [] := by
  rw [← String.toList_ofList (l := text), h]
  rfl

/-- The check of an origin accepts what the standard parses, without the optional parts. -/
theorem configured_of_validate (hparse : FollowsStandard hosts parse) {config : HttpOriginConfig}
    (h : config.validate (platform build parse) = .ok ()) :
    ∃ parsed, Configured hosts parse config parsed := by
  obtain ⟨_, -, h⟩ := except_bind_ok.mp h
  cases hurl : parse config.origin with
  | error error =>
      simp only [platform, hurl, Except.map] at h
      cases h
  | ok url =>
      simp only [platform, hurl, Except.map, Bool.or_eq_true, decide_eq_true_eq] at h
      split at h
      · cases h
      · rename_i hbare
        simp only [not_or, ne_eq, not_not, Bool.not_eq_true, Option.isSome_eq_false_iff,
          Option.isNone_iff_eq_none] at hbare
        obtain ⟨⟨⟨⟨⟨hscheme, -⟩, husername⟩, hpassword⟩, hquery⟩, hfragment⟩ := hbare
        obtain ⟨parsed, hwritten, rfl⟩ := (hparse.https config.origin url).mp ⟨hurl, hscheme⟩
        refine ⟨parsed, hwritten, hurl, of_list_empty husername, ?_, ?_, ?_⟩
        · by_contra hne
          simp [Url.ofHttps, hne] at hpassword
        · exact Option.map_eq_none_iff.mp hquery
        · exact Option.map_eq_none_iff.mp hfragment

/-- `prepare` keeps the URL of every origin under its name. -/
theorem prepare_from_lookup {platform : Platform} {configs : List HttpOriginConfig}
    {origins services : HttpServices}
    (h : HttpServices.prepareFrom platform parse origins configs = .ok services)
    (hnames : (configs.map (·.name)).Nodup) :
    (∀ name, name ∉ configs.map (·.name) → services.lookup name = origins.lookup name) ∧
      ∀ config ∈ configs, ∃ url, parse config.origin = .ok url ∧
        services.lookup config.name = some url := by
  induction configs generalizing origins with
  | nil =>
      obtain rfl : origins = services := Except.ok.inj h
      exact ⟨fun _ _ => rfl, fun _ h => nomatch h⟩
  | cons config rest ih =>
      rw [HttpServices.prepareFrom] at h
      obtain ⟨_, -, h⟩ := except_bind_ok.mp h
      rw [List.map_cons, List.nodup_cons] at hnames
      cases hurl : parse config.origin with
      | error error =>
          rw [hurl] at h
          cases h
      | ok url =>
          rw [hurl] at h
          obtain ⟨hother, hmine⟩ := ih h hnames.2
          refine ⟨fun name hname => ?_, fun other hmem => ?_⟩
          · rw [List.map_cons, List.mem_cons, not_or] at hname
            rw [hother name hname.2, AList.lookup_insert_ne hname.1]
          · rcases List.mem_cons.mp hmem with rfl | hmem
            · exact ⟨url, hurl, (hother _ hnames.1).trans (AList.lookup_insert _)⟩
            · exact hmine other hmem

/-! ## Requests to a configured origin -/

open HttpsUrl (NormalPath schemeText pathText portText parse_written)

/-- Only a path without named segments is trimmed to nothing. -/
theorem trimmed_empty_iff {path : List (List Char)} (h : NormalPath path) :
    (pathText path).rdropWhile (· == '/') = [] ↔ ∀ segment ∈ path, segment = [] := by
  rw [List.rdropWhile_eq_nil_iff]
  constructor
  · intro hslashes segment hsegment
    rw [List.eq_nil_iff_forall_not_mem]
    intro c hc
    have hslash := hslashes c (List.mem_flatMap.mpr ⟨segment, hsegment, List.mem_cons_of_mem _ hc⟩)
    obtain rfl : c = '/' := beq_iff_eq.mp hslash
    exact absurd ((h.segments segment hsegment).plain '/' hc).2 (by decide)
  · intro hempty c hc
    obtain ⟨segment, hsegment, hc⟩ := List.mem_flatMap.mp hc
    rw [hempty segment hsegment, List.mem_singleton] at hc
    exact beq_iff_eq.mpr hc

/-- The root is outside every base path that is not empty. -/
theorem root_outside {base : List Char} (hbase : base ≠ [])
    (htrimmed : base.rdropWhile (· == '/') = base) : withinBase base ['/'] = false := by
  have hroot : ¬ ['/'] = base := by
    rintro rfl
    exact absurd htrimmed (by decide)
  have hprefix : ['/'].dropPrefix? base = none := by
    cases hrest : ['/'].dropPrefix? base with
    | none => rfl
    | some rest =>
        obtain ⟨front, heq, hfront⟩ := List.dropPrefix?_eq_some_iff.mp hrest
        rw [beq_iff_eq] at hfront
        subst hfront
        match front, hbase with
        | [c], _ =>
            obtain rfl : '/' = c := (List.cons_eq_cons.mp heq).1
            exact absurd rfl hroot
        | first :: second :: more, _ => cases (List.cons_eq_cons.mp heq).2
  rw [withinBase, hprefix]
  simp [hbase, hroot]

/-- What a request needs to be admitted. -/
theorem resolve_within {origin url : Url} {path : String}
    (h : resolveUrl parse origin path = .ok url) :
    withinBase (trimSlashes origin.path) url.path.toList = true := by
  unfold resolveUrl at h
  split at h
  · cases h
  · split at h
    · cases h
    · split at h
      · cases h
      · rename_i hwithin
        obtain rfl := Except.ok.inj h
        simp only [Bool.or_eq_true, not_or, Bool.not_eq_true', Bool.not_eq_false] at hwithin
        exact hwithin.2

/-- What is enough for a request to be admitted. -/
theorem resolve_ok {origin url : Url} {path : List Char} (hhead : path.head? = some '/')
    (htwo : path.take 2 ≠ ['/', '/']) (hfragment : '#' ∉ path)
    (hparsed : parse (String.ofList (trimSlashes origin.text ++ path)) = .ok url)
    (horigin : url.origin = origin.origin)
    (hwithin : withinBase (trimSlashes origin.path) url.path.toList = true) :
    resolveUrl parse origin (String.ofList path) = .ok url := by
  have hpath :
      (path.head? ≠ some '/' || path.take 2 = ['/', '/'] || path.contains '#') = false := by
    simp [hhead, htwo, hfragment]
  have hinside : (url.origin ≠ origin.origin ||
      !withinBase (trimSlashes origin.path) url.path.toList) = false := by
    simp [horigin, hwithin]
  simp only [resolveUrl, String.toList_ofList, hpath, hparsed, hinside, Bool.false_eq_true,
    if_false]

/-- The text of a configured origin. -/
theorem configured_text {config : HttpOriginConfig} {parsed : HttpsUrl UrlHost}
    (h : Configured hosts parse config parsed) :
    (Url.ofHttps hosts parsed).text.toList = schemeText ++
      (hosts.serialize parsed.host ++ portText parsed.port ++ pathText parsed.path) := by
  obtain ⟨husername, hpassword, hquery, hfragment⟩ := h.bare
  have htext : (Url.ofHttps hosts parsed).text.toList = HttpsUrl.serialize hosts parsed :=
    String.toList_ofList
  have hcredentials : HttpsUrl.credentialsText parsed.username parsed.password = [] :=
    if_pos ⟨husername, hpassword⟩
  rw [htext, HttpsUrl.serialize, hcredentials, hquery, hfragment]
  simp only [List.append_assoc, List.append_nil, Option.elim_none]

/-- An authority does not end in a slash. -/
theorem authority_last (hlawful : hosts.Lawful) {text : List Char} {host : UrlHost}
    (hhost : hosts.parse text = some host) (port : Option Nat) :
    ∀ c ∈ (schemeText ++ (hosts.serialize host ++ portText port)).getLast?, (c == '/') = false := by
  intro c hc
  have hauthority : hosts.serialize host ++ portText port ≠ [] :=
    List.append_ne_nil_of_left_ne_nil (hlawful.nonempty text host hhost) _
  rw [List.getLast?_append_of_ne_nil _ hauthority] at hc
  have hends : HttpsUrl.endsAuthority c = false := by
    rcases List.mem_append.mp (List.mem_of_getLast? hc) with hmem | hmem
    · exact (hlawful.plain text host hhost _ hmem).2.1
    · exact (HttpsUrl.port_text_plain hmem).2.1
  rw [beq_eq_false_iff_ne]
  rintro rfl
  exact absurd hends (by decide)

/-- Every URL path can be reached exactly if the path of the origin names nothing. -/
theorem admits_iff (hparse : FollowsStandard hosts parse) {config : HttpOriginConfig}
    {parsed : HttpsUrl UrlHost} (hconfig : Configured hosts parse config parsed)
    {services : HttpServices}
    (hlookup : services.lookup config.name = some (Url.ofHttps hosts parsed)) :
    AdmitsEveryPath parse services config.name ↔ ∀ segment ∈ parsed.path, segment = [] := by
  obtain ⟨⟨name, hhost⟩, hport, hpath⟩ := HttpsUrl.parse_parts hconfig.written
  have hnormal : NormalPath parsed.path := hpath ▸ HttpsUrl.segments_normal _
  have hread : ∀ rest : List Char, (∀ c ∈ rest, HttpsUrl.pathSet c = false) →
      parse (String.ofList (schemeText ++
        (hosts.serialize parsed.host ++ portText parsed.port ++ '/' :: rest))) =
        .ok (Url.ofHttps hosts ⟨[], [], parsed.host, parsed.port,
          HttpsUrl.segments ('/' :: rest), none, none⟩) := by
    intro rest hrest
    refine ((hparse.https _ _).mpr ⟨_, ?_, rfl⟩).1
    rw [String.toList_ofList]
    exact parse_written hparse.lawful hhost hport hrest
  have htrimmed : trimSlashes (Url.ofHttps hosts parsed).path =
      (pathText parsed.path).rdropWhile (· == '/') := by
    simp [trimSlashes, Url.ofHttps]
  constructor
  · rintro ⟨origin, horigin, hadmits⟩
    obtain rfl : _ = origin := Option.some.inj (hlookup.symm.trans horigin)
    -- the root of the origin is outside any other base path
    obtain ⟨path, url, hurl, hroot⟩ := hadmits _ _ (hread [] fun _ h => nomatch h) rfl
    rw [HttpServices.url, hlookup] at hurl
    have hwithin := resolve_within hurl
    have hslash : url.path.toList = ['/'] := by
      rw [hroot]
      exact String.toList_ofList
    rw [hslash, htrimmed] at hwithin
    rw [← trimmed_empty_iff hnormal]
    by_contra hbase
    rw [root_outside hbase (List.rdropWhile_idempotent _ _)] at hwithin
    cases hwithin
  · intro hempty
    refine ⟨_, hlookup, fun text target htarget horigin => ?_⟩
    obtain ⟨scheme, hsame⟩ := Prod.mk.inj horigin
    obtain ⟨other, hother, rfl⟩ := (hparse.https text target).mp ⟨htarget, scheme⟩
    obtain ⟨-, -, hpath'⟩ := HttpsUrl.parse_parts hother
    have hnormal' : NormalPath other.path := hpath' ▸ HttpsUrl.segments_normal _
    have hplain : ∀ c ∈ '.' :: pathText other.path, HttpsUrl.pathSet c = false := by
      intro c hc
      rcases List.mem_cons.mp hc with rfl | hc
      · decide
      · obtain ⟨segment, hsegment, hc⟩ := List.mem_flatMap.mp hc
        rcases List.mem_cons.mp hc with rfl | hc
        · decide
        · exact ((hnormal'.segments segment hsegment).plain c hc).1
    have hslashes : ∀ c ∈ pathText parsed.path, (c == '/') = true :=
      List.rdropWhile_eq_nil_iff.mp ((trimmed_empty_iff hnormal).mpr hempty)
    have horigin_text : trimSlashes (Url.ofHttps hosts parsed).text =
        schemeText ++ (hosts.serialize parsed.host ++ portText parsed.port) := by
      rw [trimSlashes, configured_text hconfig, ← List.append_assoc]
      exact rdrop_while_append hslashes (authority_last hparse.lawful hhost parsed.port)
    have hurl := hread _ hplain
    rw [HttpsUrl.segments_dotted hnormal'] at hurl
    -- the dot keeps the path of the request from beginning with two slashes
    refine ⟨String.ofList ('/' :: '.' :: pathText other.path),
      Url.ofHttps hosts ⟨[], [], parsed.host, parsed.port, other.path, none, none⟩, ?_, rfl⟩
    rw [HttpServices.url, hlookup]
    refine resolve_ok rfl ?_ ?_ ?_ rfl ?_
    · exact fun htwo => absurd (List.cons_eq_cons.mp (List.cons_eq_cons.mp htwo).2).1 (by decide)
    · intro hmem
      rcases List.mem_cons.mp hmem with hslash | hmem
      · exact absurd hslash (by decide)
      · exact absurd (hplain '#' hmem) (by decide)
    · rw [horigin_text, List.append_assoc]
      exact hurl
    · rw [htrimmed, (trimmed_empty_iff hnormal).mpr hempty]
      rfl

/-! ## The audit and the requests -/

/-- The text and the path of an origin tell the same. -/
def Plain (origin : String) : Prop := InnerSlash origin ↔ Named origin

section Audit

variable {capabilities : NativeCapabilities} {services : HttpServices} {config : HttpOriginConfig}

/-- What the audit goes by, and what the requests do. -/
theorem told_iff (hparse : FollowsStandard hosts parse)
    (hvalid : capabilities.validate (platform build parse) = .ok ())
    (hservices : HttpServices.prepare build parse capabilities.httpOrigins = .ok services)
    (hconfig : config ∈ capabilities.httpOrigins) :
    (Reported capabilities config.name ↔ ¬ InnerSlash config.origin) ∧
      (AdmitsEveryPath parse services config.name ↔ ¬ Named config.origin) := by
  obtain ⟨_, -, hvalid⟩ := except_bind_ok.mp hvalid
  obtain ⟨_, -, hvalid⟩ := except_bind_ok.mp hvalid
  obtain ⟨_, horigins, -⟩ := except_bind_ok.mp hvalid
  obtain ⟨hchecked, hnames, -⟩ := validate_each_ok horigins
  obtain ⟨parsed, hconfigured⟩ := configured_of_validate hparse (hchecked config hconfig)
  have hlookup : services.lookup config.name = some (Url.ofHttps hosts parsed) := by
    obtain ⟨url, hurl, hlookup⟩ := (prepare_from_lookup hservices hnames).2 config hconfig
    obtain rfl := Except.ok.inj (hconfigured.crate.symm.trans hurl)
    exact hlookup
  refine ⟨(reported_iff hnames hconfig).trans (origin_base_path_iff config.origin), ?_⟩
  rw [admits_iff hparse hconfigured hlookup, (HttpsUrl.parse_parts hconfigured.written).2.2, Named]
  simp only [not_exists, not_and, not_not, ne_eq]

/-- The audit says the truth about exactly the origins in whose text there is a slash behind the
`https://` that something follows if, and only if, the path that is read from it has a segment. -/
theorem audit_truthful_iff (hparse : FollowsStandard hosts parse)
    (hvalid : capabilities.validate (platform build parse) = .ok ())
    (hservices : HttpServices.prepare build parse capabilities.httpOrigins = .ok services)
    (hconfig : config ∈ capabilities.httpOrigins) :
    (Reported capabilities config.name ↔ AdmitsEveryPath parse services config.name) ↔
      Plain config.origin := by
  obtain ⟨hreported, hadmits⟩ := told_iff hparse hvalid hservices hconfig
  rw [hreported, hadmits, not_iff_not, Plain]

end Audit

/-! ## Domain names in lower case -/

def isDomainChar (c : Char) : Bool := c.isLower || c.isDigit || c == '.' || c == '-'

/-- A host parser that reads domain names in lower case. -/
def domainSyntax : HostSyntax UrlHost where
  parse name :=
    if name ≠ [] ∧ name.all isDomainChar then some (.domain (String.ofList name)) else none
  serialize
    | .domain name => name.toList
    | .ipv4 _ | .ipv6 _ => []

theorem domain_char_plain {c : Char} (h : isDomainChar c = true) :
    HttpsUrl.isBlank c = false ∧ HttpsUrl.endsAuthority c = false ∧ c ≠ '@' ∧ c ≠ ':' ∧
      c ≠ '[' := by
  refine ⟨?_, ?_, ?_, ?_, ?_⟩
  · by_contra hblank
    simp only [HttpsUrl.isBlank, Bool.not_eq_false, decide_eq_true_eq] at hblank
    have hlower : c.isLower = (decide ('a'.val ≤ c.val) && decide (c.val ≤ 'z'.val)) := rfl
    simp only [isDomainChar, hlower, Char.isDigit, Bool.or_eq_true, Bool.and_eq_true,
      decide_eq_true_eq, beq_iff_eq, UInt32.le_iff_toNat_le, ge_iff_le] at h
    have hvalue : c.val.toNat ≤ 32 := hblank
    rcases h with ((⟨hlow, -⟩ | ⟨hlow, -⟩) | rfl) | rfl
    · exact absurd (hlow.trans hvalue) (by decide)
    · exact absurd (hlow.trans hvalue) (by decide)
    · exact absurd hvalue (by decide)
    · exact absurd hvalue (by decide)
  · by_contra hends
    simp only [HttpsUrl.endsAuthority, HttpsUrl.isSlash, HttpsUrl.endsPath, Bool.not_eq_false,
      Bool.or_eq_true, beq_iff_eq] at hends
    rcases hends with (rfl | rfl) | rfl | rfl <;> exact absurd h (by decide)
  all_goals
    rintro rfl
    exact absurd h (by decide)

theorem domain_parsed {name : List Char} {host : UrlHost}
    (h : domainSyntax.parse name = some host) :
    name ≠ [] ∧ (∀ c ∈ name, isDomainChar c = true) ∧ domainSyntax.serialize host = name := by
  simp only [domainSyntax, Option.ite_none_right_eq_some, Option.some.injEq] at h
  obtain ⟨⟨hne, hall⟩, rfl⟩ := h
  exact ⟨hne, List.all_eq_true.mp hall, String.toList_ofList⟩

theorem domain_lawful : domainSyntax.Lawful where
  again name host h := by
    rw [(domain_parsed h).2.2]
    exact h
  nonempty name host h := by
    rw [(domain_parsed h).2.2]
    exact (domain_parsed h).1
  plain name host h c hc := by
    obtain ⟨-, hchars, hname⟩ := domain_parsed h
    obtain ⟨hblank, hends, hat, -⟩ := domain_char_plain (hchars c (hname ▸ hc))
    exact ⟨hblank, hends, hat⟩
  closed name host h := by
    obtain ⟨-, hchars, hname⟩ := domain_parsed h
    rw [hname]
    refine .inl ⟨fun hcolon => ?_, fun hbracket => ?_⟩
    · exact (domain_char_plain (hchars _ hcolon)).2.2.2.1 rfl
    · exact (domain_char_plain (hchars _ hbracket)).2.2.2.2 rfl

/-- The standard's parser on URLs of the scheme with such hosts. -/
def parseDomainUrl : Parser := fun text =>
  match HttpsUrl.parse domainSyntax text.toList with
  | none => .error "invalid international domain name"
  | some parsed => .ok (Url.ofHttps domainSyntax parsed)

theorem domain_url_standard : FollowsStandard domainSyntax parseDomainUrl where
  lawful := domain_lawful
  https text url := by
    unfold parseDomainUrl
    cases HttpsUrl.parse domainSyntax text.toList with
    | none => simp
    | some parsed =>
        simp only [Except.ok.injEq, Option.some.injEq]
        constructor
        · rintro ⟨rfl, -⟩
          exact ⟨parsed, rfl, rfl⟩
        · rintro ⟨other, rfl, rfl⟩
          exact ⟨rfl, rfl⟩

/-- Capabilities with one origin. -/
def oneOrigin (origin : String) : NativeCapabilities := { httpOrigins := [⟨"api", origin⟩] }

/-- A build for Linux. -/
def linuxBuild : Build := ⟨.linux, "x86_64", false, fun _ => none⟩

/-- About an origin with a base path the audit is right. -/
theorem base_path_audited :
    ∃ services, HttpServices.prepare linuxBuild parseDomainUrl
        (oneOrigin "https://api.example.com/v1").httpOrigins = .ok services ∧
      (Reported (oneOrigin "https://api.example.com/v1") "api" ↔
        AdmitsEveryPath parseDomainUrl services "api") := by
  have hvalid : (oneOrigin "https://api.example.com/v1").validate
      (platform linuxBuild parseDomainUrl) = .ok () := by decide +kernel
  have hconfig : HttpOriginConfig.mk "api" "https://api.example.com/v1" ∈
      (oneOrigin "https://api.example.com/v1").httpOrigins := List.mem_cons_self
  obtain ⟨services, hservices⟩ : ∃ services, HttpServices.prepare linuxBuild parseDomainUrl
      (oneOrigin "https://api.example.com/v1").httpOrigins = .ok services := ⟨_, rfl⟩
  refine ⟨services, hservices,
    (audit_truthful_iff domain_url_standard hvalid hservices hconfig).mpr ?_⟩
  refine iff_of_true ⟨"api.example.com".toList, "v1".toList, by decide, by decide⟩ ?_
  exact ⟨"v1".toList, by decide, by decide⟩

/-- With the scheme in capitals the audit reports nothing, and every path can be reached. -/
theorem capitals_unreported :
    (oneOrigin "HTTPS://api.example.com").validate (platform linuxBuild parseDomainUrl) = .ok () ∧
      ∃ services, HttpServices.prepare linuxBuild parseDomainUrl
        (oneOrigin "HTTPS://api.example.com").httpOrigins = .ok services ∧
      ¬ Reported (oneOrigin "HTTPS://api.example.com") "api" ∧
      AdmitsEveryPath parseDomainUrl services "api" := by
  have hvalid : (oneOrigin "HTTPS://api.example.com").validate
      (platform linuxBuild parseDomainUrl) = .ok () := by decide +kernel
  have hconfig : HttpOriginConfig.mk "api" "HTTPS://api.example.com" ∈
      (oneOrigin "HTTPS://api.example.com").httpOrigins := List.mem_cons_self
  obtain ⟨services, hservices⟩ : ∃ services, HttpServices.prepare linuxBuild parseDomainUrl
      (oneOrigin "HTTPS://api.example.com").httpOrigins = .ok services := ⟨_, rfl⟩
  obtain ⟨hreported, hadmits⟩ := told_iff domain_url_standard hvalid hservices hconfig
  refine ⟨hvalid, services, hservices, fun h => hreported.mp h ?_, hadmits.mpr ?_⟩
  · exact ⟨"HTTPS:".toList, "/api.example.com".toList, by decide, by decide⟩
  · unfold Named
    decide

end PamDesktop.Shell.PermissionAudit
