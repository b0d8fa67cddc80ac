import PamDesktop.Php.BuilderFields
import PamDesktop.Php.Window

/-!
# Builders and the host

`ApplicationManifest::validate` and `WindowConfig::validate` check what the host has read of the
arrays that PHP builds. `builders_agree_iff` says which of them it accepts.
-/

namespace PamDesktop.Php

open Foundations Protocol

/-! ## Updates -/

/-- An identifier of PHP is one for the host if no line feed stands behind it. -/
theorem identifier_accepted_iff {value label label' : String}
    (h : Identifier.assert (osString value) label = .ok ()) :
    validateIdentifier value label' = .ok () ↔ (osString value).getLast? ≠ some 10 := by
  rw [validate_identifier_bytes, strict_name_iff, and_iff_right (assert_iff.mp h)]

/-- An endpoint of PHP is ASCII without control characters. -/
theorem endpoint_accepted_iff {build : Build} {urls : UrlFunctions} {endpoint label : String}
    (h : assertEndpoint urls endpoint = .ok ()) :
    validateUpdateUrl build endpoint label = .ok () ↔
      (build.parseUrl endpoint).any (trustedUrl build) = true := by
  unfold assertEndpoint at h
  dsimp only at h
  split at h
  · cases h
  · rename_i hvalid
    simp only [Bool.or_eq_true, not_or, decide_eq_true_iff, List.any_eq_true, not_exists, not_and,
      Bool.not_eq_true', Bool.not_eq_false] at hvalid
    obtain ⟨⟨hlength, hcontrol⟩, hurl⟩ := hvalid
    have hascii := urls.only_ascii _ hurl
    have hnone : endpoint.toList.any isControl = false := by
      rw [List.any_eq_false]
      intro c hc hbad
      have hlow := hcontrol c hc
      rw [ascii_characters hascii] at hc
      obtain ⟨byte, hbyte, rfl⟩ := List.mem_map.mp hc
      have hsmall := ascii_char_to_nat (hascii byte hbyte)
      have hbound := hascii byte hbyte
      simp only [isControl, Bool.or_eq_true, Bool.and_eq_true, decide_eq_true_iff] at hbad
      simp only [beq_iff_eq] at hlow
      omega
    rw [text_size] at hlength
    unfold validateUpdateUrl
    rw [decide_eq_false hlength, hnone, Bool.false_or, Bool.false_or]
    cases (build.parseUrl endpoint).any (trustedUrl build) with
    | false => exact iff_of_false nofun nofun
    | true => exact iff_of_true rfl rfl

/-- What the host reads of updates. -/
def Updates.config {urls : UrlFunctions} (updates : Updates urls) : UpdateConfig where
  endpoint := updates.endpoint
  channel := updates.channel
  publicKey := updates.publicKey
  policy := updates.policy

/-- The URL parser of the host finds a trusted URL in the endpoint, and no line feed stands behind
the channel. -/
structure Updates.Portable {urls : UrlFunctions} (updates : Updates urls) (build : Build) :
    Prop where
  endpoint : (build.parseUrl updates.endpoint).any (trustedUrl build) = true
  channel : (osString updates.channel).getLast? ≠ some 10

theorem Updates.accepted_iff {urls : UrlFunctions} (updates : Updates urls) (build : Build) :
    updates.config.validate build = .ok () ↔ updates.Portable build := by
  have hchecked := updates.checked
  unfold UpdatesValues.check at hchecked
  obtain ⟨hendpoint, hchecked⟩ := check_bind_ok.mp hchecked
  obtain ⟨hchannel, hkey⟩ := check_bind_ok.mp hchecked
  split at hkey
  · cases hkey
  · rename_i hmatch
    rw [Bool.not_eq_true', Bool.not_eq_false] at hmatch
    unfold UpdateConfig.validate
    rw [check_bind_ok, check_bind_ok, Updates.config, endpoint_accepted_iff hendpoint,
      identifier_accepted_iff hchannel, and_iff_left (public_key_accepted hmatch)]
    exact ⟨fun h => ⟨h.1, h.2⟩, fun h => ⟨h.1, h.2⟩⟩

/-! ## Manifests -/

namespace Manifest

variable {build : Build} {urls : UrlFunctions}

/-- What the host reads of a manifest. -/
def config (manifest : Manifest build urls) : ApplicationManifest where
  identifier := manifest.identifier
  name := manifest.name
  version := manifest.version
  description := manifest.description
  publisher := manifest.publisher
  category := manifest.category
  icon := manifest.icon
  bundleExcludes := manifest.bundleExcludes
  updates := manifest.updates.map Updates.config
  lifecycle :=
    { urlSchemes := manifest.lifecycle.urlSchemes
      mimeTypes := manifest.lifecycle.mimeTypes
      autostart := manifest.lifecycle.autostartEnabled }

/-- The manifests that the host accepts. Names are not blank in Unicode either and have no control
characters beyond ASCII; something stands before the extension of the icon; on Windows no path has
a drive. -/
structure Portable (manifest : Manifest build urls) : Prop where
  nameVisible : manifest.name.toList.all isWhitespace = false
  name : ∀ c ∈ manifest.name.toList, isHighControl c = false
  description : ∀ c ∈ manifest.description.toList, isHighControl c = false
  publisherVisible : manifest.publisher.toList.all isWhitespace = false
  publisher : ∀ c ∈ manifest.publisher.toList, isHighControl c = false
  iconNamed : 4 < (basename build (osString manifest.icon)).length
  icon : rooted build manifest.icon = false
  excludes : ∀ path ∈ manifest.bundleExcludes, rooted build path = false
  updates : ∀ updates, manifest.updates = some updates → updates.Portable build

/-- What PHP has made sure of about a manifest. -/
theorem checked_parts (manifest : Manifest build urls) :
    assertApplicationIdentifier manifest.identifier = .ok () ∧
      assertText manifest.name "The application name" 80 false = .ok () ∧
      assertVersion manifest.version = .ok () ∧
      assertText manifest.description "The application description" 256 true = .ok () ∧
      assertText manifest.publisher "The application publisher" 128 false = .ok () ∧
      assertProjectPath manifest.icon "The application icon" = .ok () ∧
      [osString "png", osString "svg"].contains
        ((pathinfoExtension build (osString manifest.icon)).map lowerByte) = true ∧
      assertExcludes [] manifest.bundleExcludes = .ok () := by
  have hchecked := manifest.checked
  unfold ManifestValues.check at hchecked
  obtain ⟨hidentifier, hchecked⟩ := check_bind_ok.mp hchecked
  obtain ⟨hname, hchecked⟩ := check_bind_ok.mp hchecked
  obtain ⟨hversion, hchecked⟩ := check_bind_ok.mp hchecked
  obtain ⟨hdescription, hchecked⟩ := check_bind_ok.mp hchecked
  obtain ⟨hpublisher, hchecked⟩ := check_bind_ok.mp hchecked
  obtain ⟨hicon, hchecked⟩ := check_bind_ok.mp hchecked
  dsimp only at hchecked
  split at hchecked
  · cases hchecked
  · rename_i hextension
    rw [Bool.not_eq_true', Bool.not_eq_false] at hextension
    exact ⟨hidentifier, hname, hversion, hdescription, hpublisher, hicon, hextension, hchecked⟩

/-- The checks of the host, one by one. -/
theorem validate_parts (manifest : ApplicationManifest) :
    manifest.validate build = .ok () ↔
      validateApplicationIdentifier manifest.identifier = .ok () ∧
      validateText manifest.name "application name" 80 false = .ok () ∧
      validateVersion manifest.version = .ok () ∧
      validateText manifest.description "application description" 256 true = .ok () ∧
      validateText manifest.publisher "application publisher" 128 false = .ok () ∧
      validateRelativeProjectPath build manifest.icon "application icon" = .ok () ∧
      [some (osString "png"), some (osString "svg")].contains
        (iconExtension build manifest.icon) = true ∧
      validateExcludes build [] manifest.bundleExcludes = .ok () ∧
      (∀ updates, manifest.updates = some updates → updates.validate build = .ok ()) ∧
      manifest.lifecycle.validate = .ok () := by
  unfold ApplicationManifest.validate
  rw [check_bind_ok, check_bind_ok, check_bind_ok, check_bind_ok, check_bind_ok, check_bind_ok]
  dsimp only
  cases hextension : [some (osString "png"), some (osString "svg")].contains
      (iconExtension build manifest.icon) with
  | false =>
      refine iff_of_false ?_ fun h => absurd h.2.2.2.2.2.2.1 Bool.false_ne_true
      intro h
      cases h.2.2.2.2.2.2
  | true =>
      rw [Bool.not_true, if_neg Bool.false_ne_true, check_bind_ok]
      cases manifest.updates with
      | none => simp [check_bind_ok]
      | some updates => simp [check_bind_ok]

theorem accepted_iff (manifest : Manifest build urls) :
    manifest.config.validate build = .ok () ↔ manifest.Portable := by
  obtain ⟨hidentifier, hname, hversion, hdescription, hpublisher, hicon, hextension, hexcludes⟩ :=
    manifest.checked_parts
  obtain ⟨hnonempty, -, hslash, hparent⟩ := project_path_checked hicon
  have hcomponents := project_components_rooted build hnonempty hslash hparent
  rw [validate_parts, config, text_accepted_iff hname, text_accepted_iff hdescription,
    text_accepted_iff hpublisher, project_path_accepted_iff hicon, excludes_accepted_iff hexcludes,
    lifecycle_accepted manifest.lifecycle _ rfl rfl]
  have hupdates : (∀ updates, manifest.updates.map Updates.config = some updates →
      updates.validate build = .ok ()) ↔
        ∀ updates, manifest.updates = some updates → updates.Portable build := by
    cases manifest.updates with
    | none => simp
    | some updates => simp [updates.accepted_iff build]
  constructor
  · intro ⟨_, hname, _, hdescription, hpublisher, hrooted, hicon, hexcludes, hupdate, _⟩
    exact ⟨hname.1 rfl, hname.2, hdescription.2, hpublisher.1 rfl, hpublisher.2,
      (icon_accepted_iff hrooted hcomponents hextension).mp hicon, hrooted, hexcludes,
      hupdates.mp hupdate⟩
  · intro h
    exact ⟨application_identifier_accepted hidentifier, ⟨fun _ => h.nameVisible, h.name⟩,
      version_accepted hversion, ⟨nofun, h.description⟩, ⟨fun _ => h.publisherVisible, h.publisher⟩,
      h.icon, (icon_accepted_iff h.icon hcomponents hextension).mpr h.iconNamed, h.excludes,
      hupdates.mpr h.updates, rfl⟩

end Manifest

/-! ## The wire -/

section Wire

open Serving

variable {floatText : PhpFloat → String} {build : Build} {urls : UrlFunctions}

/-- A list whose items are each printed as something. -/
theorem encode_items {α : Type} {toArray : α → PhpValue} {print : α → Json} {depth : Nat}
    (items : List α) (hdepth : depth < maxJsonDepth)
    (hitem : ∀ item, jsonEncode floatText (depth + 1) (toArray item) = some (print item)) :
    jsonEncode floatText depth (phpList (items.map toArray)) = some (.array (items.map print)) := by
  rw [encode_list _ hdepth]
  have hitems : (items.map toArray).mapM (jsonEncode floatText (depth + 1)) =
      some (items.map print) := by
    induction items with
    | nil => rfl
    | cons item rest ih =>
        rw [List.map_cons, List.mapM_cons, hitem, ih]
        rfl
  rw [hitems]
  rfl

theorem encode_texts (texts : List String) {depth : Nat} (hdepth : depth < maxJsonDepth) :
    jsonEncode floatText depth (phpList (texts.map phpText)) =
      some (.array (texts.map Json.string)) :=
  encode_items texts hdepth fun text => encode_text _ text

/-- A member that is printed, and the rest. -/
theorem encode_members_cons {name : String} {value : PhpValue} {rest : List (String × PhpValue)}
    {depth : Nat} {json : Json} {members : List (String × Json)}
    (hvalue : jsonEncode floatText depth value = some json)
    (hrest : encodeNamed floatText depth rest = some members) :
    encodeNamed floatText depth ((name, value) :: rest) = some ((name, json) :: members) :=
  encode_named_cons.mpr ⟨json, members, hvalue, hrest, rfl⟩

theorem encode_lifecycle (lifecycle : Lifecycle) {depth : Nat} (hdepth : depth + 1 < maxJsonDepth) :
    jsonEncode floatText depth lifecycle.toArray = some (LifecycleConfig.codec.encode
      { urlSchemes := lifecycle.urlSchemes
        mimeTypes := lifecycle.mimeTypes
        autostart := lifecycle.autostartEnabled }) := by
  have hmembers : encodeNamed floatText (depth + 1) [("urlSchemes",
      phpList (lifecycle.urlSchemes.map phpText)),
      ("mimeTypes", phpList (lifecycle.mimeTypes.map phpText)),
      ("autostart", .bool lifecycle.autostartEnabled)] =
        some [("urlSchemes", .array (lifecycle.urlSchemes.map Json.string)),
          ("mimeTypes", .array (lifecycle.mimeTypes.map Json.string)),
          ("autostart", .bool lifecycle.autostartEnabled)] :=
    encode_members_cons (encode_texts _ hdepth) (encode_members_cons (encode_texts _ hdepth)
      (encode_members_cons rfl rfl))
  rw [Lifecycle.toArray, encode_named _ _ (by omega), hmembers]
  rfl

theorem policy_number (policy : UpdatePolicy) :
    Json.number ((policy.ctorIdx : Int) + 1) = UpdatePolicy.codec.encode policy := by
  cases policy <;> rfl

theorem category_number (category : ApplicationCategory) :
    Json.number ((category.ctorIdx : Int) + 1) = ApplicationCategory.codec.encode category := by
  cases category <;> rfl

theorem encode_updates (updates : Updates urls) {depth : Nat}
    (hdepth : depth < maxJsonDepth) :
    jsonEncode floatText depth updates.toArray =
      some (UpdateConfig.codec.encode updates.config) := by
  have hmembers : encodeNamed floatText (depth + 1) [("endpoint", phpText updates.endpoint),
      ("channel", phpText updates.channel), ("publicKey", phpText updates.publicKey),
      ("policy", .int (updates.policy.ctorIdx + 1))] =
        some [("endpoint", .string updates.endpoint), ("channel", .string updates.channel),
          ("publicKey", .string updates.publicKey),
          ("policy", UpdatePolicy.codec.encode updates.policy)] := by
    rw [← policy_number]
    exact encode_members_cons (encode_text _ _) (encode_members_cons (encode_text _ _)
      (encode_members_cons (encode_text _ _) (encode_members_cons rfl rfl)))
  rw [Updates.toArray, encode_named _ _ hdepth, hmembers]
  rfl

theorem updates_ne_null (config : UpdateConfig) : UpdateConfig.codec.encode config ≠ .null := by
  intro hnull
  cases hnull

/-- The members of the manifest, with `null` for updates that there are not. -/
def Manifest.members (manifest : Manifest build urls) :
    List (String × Json) :=
  [("identifier", .string manifest.identifier), ("name", .string manifest.name),
    ("version", .string manifest.version), ("description", .string manifest.description),
    ("publisher", .string manifest.publisher),
    ("category", ApplicationCategory.codec.encode manifest.category),
    ("icon", .string manifest.icon),
    ("bundleExcludes", .array (manifest.bundleExcludes.map Json.string)),
    ("updates", (UpdateConfig.codec.option updates_ne_null).encode manifest.config.updates),
    ("lifecycle", LifecycleConfig.codec.encode manifest.config.lifecycle)]

theorem encode_manifest (manifest : Manifest build urls) :
    jsonEncode floatText 0 manifest.toArray = some (.object manifest.members) := by
  have hupdates : jsonEncode floatText 1 (manifest.updates.elim .null Updates.toArray) =
      some ((UpdateConfig.codec.option updates_ne_null).encode manifest.config.updates) := by
    unfold Manifest.config
    cases manifest.updates with
    | none => rfl
    | some updates => exact encode_updates updates (by decide)
  rw [Manifest.toArray, encode_named _ _ (by decide), Manifest.members, ← category_number]
  refine Option.map_eq_some_iff.mpr ⟨_, ?_, rfl⟩
  refine encode_members_cons (encode_text _ _) ?_
  refine encode_members_cons (encode_text _ _) ?_
  refine encode_members_cons (encode_text _ _) ?_
  refine encode_members_cons (encode_text _ _) ?_
  refine encode_members_cons (encode_text _ _) ?_
  refine encode_members_cons rfl ?_
  refine encode_members_cons (encode_text _ _) ?_
  refine encode_members_cons (encode_texts _ (by decide)) ?_
  refine encode_members_cons hupdates ?_
  exact encode_members_cons (encode_lifecycle _ (by decide)) rfl

theorem decode_text (value : String) : Codec.text.decode (.string value) = some value := rfl

/-- A `null` stands for no updates, like a member that is missing. -/
theorem decode_manifest (manifest : Manifest build urls) :
    ApplicationManifest.codec.decode (.object manifest.members) = some manifest.config := by
  have hcategory := ApplicationCategory.codec.decode_encode manifest.category trivial
  have hexcludes : Codec.text.list.decode (.array (manifest.bundleExcludes.map Json.string)) =
      some manifest.bundleExcludes :=
    Codec.text.list.decode_encode manifest.bundleExcludes fun _ _ => trivial
  have hupdates := (UpdateConfig.codec.option updates_ne_null).decode_encode
    manifest.config.updates (by
      intro updates _
      simp [UpdateConfig.codec, UpdatePolicy.codec])
  have hlifecycle := LifecycleConfig.codec.decode_encode manifest.config.lifecycle (by
    simp [LifecycleConfig.codec])
  unfold Manifest.members ApplicationManifest.codec Record.codec Record.optional Record.defaulted
    Record.skipped Record.required Record.field Record.start
  simp [List.lookup_cons, Field.read, decode_text, hcategory, hexcludes, hupdates, hlifecycle]
  rfl

/-- There is one text that PHP prints and one value that the host reads in it, so it accepts the
array if it accepts that value. -/
theorem read_accepted_iff {α : Type} {codec : Codec α} {validate : α → Except String Unit}
    {array : PhpValue} {json : Json} {config : α} (hjson : jsonEncode floatText 0 array = some json)
    (hdecode : codec.decode json = some config) :
    (∃ json config, jsonEncode floatText 0 array = some json ∧ codec.decode json = some config ∧
      validate config = .ok ()) ↔ validate config = .ok () := by
  constructor
  · intro ⟨json', config', hjson', hconfig, hvalid⟩
    cases hjson.symm.trans hjson'
    cases hdecode.symm.trans hconfig
    exact hvalid
  · exact fun hvalid => ⟨json, config, hjson, hdecode, hvalid⟩

/-- The host reads a manifest in what PHP prints for the array, and accepts it. -/
def ManifestAccepted (build : Build) (floatText : PhpFloat → String) (array : PhpValue) : Prop :=
  ∃ json manifest, jsonEncode floatText 0 array = some json ∧
    ApplicationManifest.codec.decode json = some manifest ∧ manifest.validate build = .ok ()

theorem manifest_accepted_iff (manifest : Manifest build urls) :
    ManifestAccepted build floatText manifest.toArray ↔ manifest.Portable :=
  (read_accepted_iff (encode_manifest manifest) (decode_manifest manifest)).trans
    manifest.accepted_iff

/-! ## Windows -/

namespace Window

/-- What the host reads of a window with dimensions that it can hold. -/
def config (window : Window) (id : String) : WindowConfig where
  id := id
  entry := window.entry
  title := window.title
  width := window.width.toNat
  height := window.height.toNat
  minWidth := window.minWidth.toNat
  minHeight := window.minHeight.toNat
  resizable := window.resizable
  visible := window.visible
  theme := window.theme
  decorated := window.decorated
  transparent := window.transparent
  alwaysOnTop := window.alwaysOnTop
  maximized := window.maximized
  fullscreen := window.fullscreen

/-- The dimensions fit 32 bits. -/
def Fits (window : Window) : Prop := window.width < 4294967296 ∧ window.height < 4294967296

/-- The windows that the host accepts under a name of PHP: no line feed stands behind the name, the
title is not blank in Unicode either, the dimensions fit 32 bits, and on Windows the entry begins
with neither a backslash nor a drive. -/
structure Portable (window : Window) (build : Build) (id : String) : Prop where
  id : (osString id).getLast? ≠ some 10
  title : window.title.toList.all isWhitespace = false
  entry : rooted build window.entry = false
  fits : window.Fits

/-- What PHP has made sure of about a window. -/
theorem checked_parts (window : Window) :
    osString window.entry ≠ [] ∧ (osString window.entry).head? ≠ some 47 ∧
      parentPattern.pregMatch (osString window.entry) = false ∧ 320 ≤ window.minWidth ∧
      240 ≤ window.minHeight ∧ window.minWidth ≤ window.width ∧
      window.minHeight ≤ window.height := by
  have hchecked := window.checked
  unfold WindowValues.check at hchecked
  split at hchecked
  · cases hchecked
  · rename_i hentry
    split at hchecked
    · cases hchecked
    · split at hchecked
      · cases hchecked
      · rename_i hminimum
        split at hchecked
        · cases hchecked
        · rename_i hsize
          simp only [Bool.or_eq_true, not_or, beq_iff_eq, Bool.not_eq_true] at hentry
          simp only [Bool.or_eq_true, not_or, decide_eq_true_iff, not_lt] at hminimum hsize
          exact ⟨fun hbytes => hentry.1.1 (os_string_empty.mp hbytes), hentry.1.2, hentry.2,
            hminimum.1, hminimum.2, hsize.1, hsize.2⟩

theorem accepted_iff (window : Window) (build : Build) {id : String}
    (hid : Identifier.assert (osString id) "The window identifier" = .ok ()) :
    (window.config id).validate build = .ok () ↔ (osString id).getLast? ≠ some 10 ∧
      window.title.toList.all isWhitespace = false ∧ rooted build window.entry = false := by
  obtain ⟨hentry, hslash, hparent, hminWidth, hminHeight, hwidth, hheight⟩ := window.checked_parts
  have htext : window.entry.toList ≠ [] := by
    intro hnil
    rw [os_string_encode, hnil] at hentry
    exact hentry rfl
  unfold WindowConfig.validate
  rw [check_bind_ok, Window.config, identifier_accepted_iff hid]
  refine and_congr_right fun _ => ?_
  rw [project_components_rooted build hentry hslash hparent, decide_eq_false htext,
    Bool.false_or]
  cases rooted build window.entry with
  | true => exact iff_of_false nofun fun h => absurd h.2 nofun
  | false =>
      cases window.title.toList.all isWhitespace with
      | true => exact iff_of_false nofun fun h => absurd h.1 nofun
      | false =>
          refine iff_of_true ?_ ⟨rfl, rfl⟩
          have hwidth' : ¬ window.width.toNat < window.minWidth.toNat := by omega
          have hheight' : ¬ window.height.toNat < window.minHeight.toNat := by omega
          have hminWidth' : ¬ window.minWidth.toNat < 320 := by omega
          have hminHeight' : ¬ window.minHeight.toNat < 240 := by omega
          simp [hwidth', hheight', hminWidth', hminHeight']
          rfl

/-- The members of the window. -/
def members (window : Window) (id : String) : List (String × Json) :=
  [("id", .string id), ("entry", .string window.entry), ("title", .string window.title),
    ("width", .number window.width), ("height", .number window.height),
    ("minWidth", .number window.minWidth), ("minHeight", .number window.minHeight),
    ("resizable", .bool window.resizable), ("visible", .bool window.visible),
    ("theme", WindowTheme.codec.encode window.theme), ("decorated", .bool window.decorated),
    ("transparent", .bool window.transparent), ("alwaysOnTop", .bool window.alwaysOnTop),
    ("maximized", .bool window.maximized), ("fullscreen", .bool window.fullscreen)]

end Window

theorem theme_number (theme : WindowTheme) :
    Json.number ((theme.ctorIdx : Int) + 1) = WindowTheme.codec.encode theme := by
  cases theme <;> rfl

theorem encode_window (floatText : PhpFloat → String) (window : Window) {id : String}
    {array : PhpValue} (h : window.toArray id = .ok array) :
    Identifier.assert (osString id) "The window identifier" = .ok () ∧
      jsonEncode floatText 0 array = some (.object (window.members id)) := by
  obtain ⟨hid, harray⟩ := check_bind_ok.mp h
  cases harray
  refine ⟨hid, ?_⟩
  rw [encode_named _ _ (by decide), Window.members, ← theme_number]
  refine Option.map_eq_some_iff.mpr ⟨_, ?_, rfl⟩
  refine encode_members_cons (encode_text _ _) ?_
  refine encode_members_cons (encode_text _ _) ?_
  refine encode_members_cons (encode_text _ _) ?_
  refine encode_members_cons rfl (encode_members_cons rfl ?_)
  refine encode_members_cons rfl (encode_members_cons rfl ?_)
  refine encode_members_cons rfl (encode_members_cons rfl ?_)
  refine encode_members_cons rfl (encode_members_cons rfl ?_)
  refine encode_members_cons rfl (encode_members_cons rfl ?_)
  exact encode_members_cons rfl (encode_members_cons rfl rfl)

theorem decode_bool (value : Bool) : Codec.boolean.decode (.bool value) = some value := rfl

/-- A dimension that fits is read. -/
theorem decode_fitting {value : Int} (hpositive : 0 ≤ value) (h : value < 4294967296) :
    (Codec.unsigned 32).decode (.number value) = some value.toNat :=
  if_pos ⟨hpositive, by simpa using h⟩

theorem decode_large {value : Int} (h : ¬ value < 4294967296) :
    (Codec.unsigned 32).decode (.number value) = none :=
  if_neg fun hrange => h (by simpa using hrange.2)

theorem decode_window (window : Window) (id : String) (hfits : window.Fits) :
    WindowConfig.codec.decode (.object (window.members id)) = some (window.config id) := by
  obtain ⟨-, -, -, hminWidth, hminHeight, hwidth, hheight⟩ := window.checked_parts
  obtain ⟨hwidth', hheight'⟩ := hfits
  have htheme := WindowTheme.codec.decode_encode window.theme trivial
  have hreadWidth := decode_fitting (by omega) hwidth'
  have hreadHeight := decode_fitting (by omega) hheight'
  have hreadMinWidth := decode_fitting (show 0 ≤ window.minWidth by omega) (by omega)
  have hreadMinHeight := decode_fitting (show 0 ≤ window.minHeight by omega) (by omega)
  unfold Window.members WindowConfig.codec Record.codec Record.defaulted Record.required
    Record.field Record.start
  simp [List.lookup_cons, Field.read, decode_text, decode_bool, htheme, hreadWidth, hreadHeight,
    hreadMinWidth, hreadMinHeight]
  rfl

/-- A dimension that does not fit is no window for the host. -/
theorem decode_large_window (window : Window) (id : String) (hlarge : ¬ window.Fits) :
    WindowConfig.codec.decode (.object (window.members id)) = none := by
  unfold Window.Fits at hlarge
  unfold Window.members WindowConfig.codec Record.codec Record.defaulted Record.required
    Record.field Record.start
  by_cases hwidth : window.width < 4294967296
  · have hheight : ¬ window.height < 4294967296 := fun h => hlarge ⟨hwidth, h⟩
    simp [List.lookup_cons, Field.read, decode_text, decode_large hheight]
  · simp [List.lookup_cons, Field.read, decode_text, decode_large hwidth]

/-- The host reads a window in what PHP prints for the array, and accepts it. -/
def WindowAccepted (build : Build) (floatText : PhpFloat → String) (array : PhpValue) : Prop :=
  ∃ json window, jsonEncode floatText 0 array = some json ∧
    WindowConfig.codec.decode json = some window ∧ window.validate build = .ok ()

theorem window_accepted_iff (window : Window) {id : String} {array : PhpValue}
    (h : window.toArray id = .ok array) :
    WindowAccepted build floatText array ↔ window.Portable build id := by
  obtain ⟨hid, hjson⟩ := encode_window floatText window h
  have haccepted := window.accepted_iff build hid
  by_cases hfits : window.Fits
  · refine (read_accepted_iff hjson (decode_window window id hfits)).trans (haccepted.trans ?_)
    constructor
    · intro ⟨hname, htitle, hentry⟩
      exact ⟨hname, htitle, hentry, hfits⟩
    · intro hportable
      exact ⟨hportable.id, hportable.title, hportable.entry⟩
  · refine iff_of_false ?_ fun hportable => hfits hportable.fits
    intro ⟨json, config, hjson', hconfig', _⟩
    cases hjson.symm.trans hjson'
    rw [decode_large_window window id hfits] at hconfig'
    cases hconfig'

/-- The host accepts exactly the manifests and windows of PHP that are portable. -/
theorem builders_agree_iff (build : Build) (urls : UrlFunctions) (floatText : PhpFloat → String) :
    (∀ manifest : Manifest build urls,
      ManifestAccepted build floatText manifest.toArray ↔ manifest.Portable) ∧
      ∀ (window : Window) (id : String) (array : PhpValue), window.toArray id = .ok array →
        (WindowAccepted build floatText array ↔ window.Portable build id) :=
  ⟨manifest_accepted_iff, fun window _ _ => window_accepted_iff window⟩

end Wire

/-! ## Runs -/

/-- A constructor that does not throw. -/
theorem construct_ok {α : Type} {check : Except String Unit} {object : check = .ok () → α}
    (h : check = .ok ()) : construct check object = .ok (object h) := by
  subst h
  rfl

/-- An engine for which nothing is a URL. -/
def noUrls : UrlFunctions where
  filterVar _ := false
  parseUrl _ := none
  only_ascii _ h := absurd h Bool.false_ne_true

/-- The values of `Manifest::create` for the notes application. -/
def notesValues (name : String) : ManifestValues noUrls where
  identifier := "dev.pam.notes"
  name := name
  version := "1.0.0"
  description := ""
  publisher := name
  category := .utility
  icon := "resources/icon.svg"
  bundleExcludes := []
  updates := none
  lifecycle := Lifecycle.none

/-- The values of `Window::create`. -/
def notesWindowValues : WindowValues where
  entry := "resources/index.html"
  title := "Pam Notes"
  width := 1120
  height := 720
  minWidth := 720
  minHeight := 520
  resizable := true
  visible := true
  theme := .system
  decorated := true
  transparent := false
  alwaysOnTop := false
  maximized := false
  fullscreen := false

theorem notes_window_checked : notesWindowValues.check = .ok () := by decide +kernel

/-- The main window of the notes application is accepted. -/
theorem notes_window_accepted : ∃ window array, Window.create "Pam Notes" = .ok window ∧
    window.toArray "main" = .ok array ∧
      WindowAccepted notesPlatform.toBuild Serving.oneAndHalf array := by
  let window : Window := ⟨notesWindowValues, notes_window_checked⟩
  have hid : Identifier.assert (osString "main") "The window identifier" = .ok () := by
    decide +kernel
  have harray : window.toArray "main" = .ok _ := check_bind_ok.mpr ⟨hid, rfl⟩
  refine ⟨window, _, construct_ok notes_window_checked, harray, ?_⟩
  refine ((builders_agree_iff notesPlatform.toBuild noUrls Serving.oneAndHalf).2 window "main" _
    harray).mpr ⟨?_, ?_, ?_, ?_⟩
  · decide +kernel
  · show "Pam Notes".toList.all isWhitespace = false
    decide +kernel
  · show rooted notesPlatform.toBuild "resources/index.html" = false
    decide +kernel
  · show (1120 : Int) < 4294967296 ∧ (720 : Int) < 4294967296
    decide

/-- PHP accepts a next line control in a name, and the host refuses it. -/
theorem next_line_refused : ∃ manifest : Manifest notesPlatform.toBuild noUrls,
    Manifest.create "dev.pam.notes" "Pam\u0085Notes" "1.0.0" = .ok manifest ∧
      ¬ManifestAccepted notesPlatform.toBuild Serving.oneAndHalf manifest.toArray := by
  have hchecked : (notesValues "Pam\u0085Notes").check notesPlatform.toBuild = .ok () := by
    decide +kernel
  refine ⟨⟨notesValues "Pam\u0085Notes", hchecked⟩, construct_ok hchecked, ?_⟩
  intro haccepted
  have hmem : '\u0085' ∈ "Pam\u0085Notes".toList := by decide
  have hname := ((manifest_accepted_iff _).mp haccepted).name '\u0085' hmem
  exact absurd hname (by decide)

end PamDesktop.Php
