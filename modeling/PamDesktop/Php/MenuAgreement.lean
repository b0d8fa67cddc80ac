import PamDesktop.Php.Menu

/-!
# Menus in PHP and in the host

`ShellConfig::validate` checks what the host has read of a shell, item by item in the order of PHP.
`same_menus_iff` says for which shells one of the two accepts what the other refuses.
-/

namespace PamDesktop.Php

open Foundations Protocol

/-! ## What the host reads -/

mutual

/-- The item with this description. -/
def MenuItem.ofConfig : MenuItemConfig → MenuItem
  | ⟨kind, id, label, enabled, checked, accelerator, items⟩ =>
      ⟨kind, osString id, osString label, enabled, checked, accelerator.map osString,
        itemsOfConfigs items⟩
termination_by structural item => item

/-- The items with these descriptions. -/
def itemsOfConfigs : List MenuItemConfig → List MenuItem
  | [] => []
  | item :: rest => MenuItem.ofConfig item :: itemsOfConfigs rest
termination_by structural items => items

end

/-- The menu with this description. -/
def Menu.ofConfig (menu : MenuConfig) : Menu :=
  ⟨osString menu.id, osString menu.label, itemsOfConfigs menu.items⟩

/-- The tray with this description. -/
def Tray.ofConfig (tray : TrayConfig) : Tray :=
  ⟨osString tray.menuId, osString tray.tooltip, tray.closeBehavior⟩

/-- The shell with this description. -/
def Shell.ofConfig (shell : ShellConfig) : Shell :=
  ⟨shell.menus.map Menu.ofConfig, shell.tray.map Tray.ofConfig⟩

/-- The array of the shell is a description that the host accepts. -/
def Shell.Accepted (shell : Shell) : Prop :=
  ∃ config : ShellConfig, config.shortcuts = [] ∧ config.quickActions = [] ∧
    Shell.ofConfig config = shell ∧ config.validate = .ok ()

/-! ## The check of an item -/

mutual

/-- The items of a description with their levels. -/
def configEntriesOf (depth : Nat) : MenuItemConfig → List (Nat × MenuItemConfig)
  | ⟨kind, id, label, enabled, checked, accelerator, items⟩ =>
      (depth, ⟨kind, id, label, enabled, checked, accelerator, items⟩) ::
        configEntries (depth + 1) items
termination_by structural item => item

/-- The items of a list of descriptions. -/
def configEntries (depth : Nat) : List MenuItemConfig → List (Nat × MenuItemConfig)
  | [] => []
  | item :: rest => configEntriesOf depth item ++ configEntries depth rest
termination_by structural items => items

end

mutual

theorem entries_of_config : ∀ (item : MenuItemConfig) (depth : Nat),
    (MenuItem.ofConfig item).entries depth =
      (configEntriesOf depth item).map fun entry => (entry.1, MenuItem.ofConfig entry.2)
  | ⟨kind, id, label, enabled, checked, accelerator, items⟩, depth => by
      rw [configEntriesOf, List.map_cons, ← entries_of_configs items (depth + 1)]
      rfl

/-- The items of a description are those of the menu. -/
theorem entries_of_configs : ∀ (items : List MenuItemConfig) (depth : Nat),
    itemEntries depth (itemsOfConfigs items) =
      (configEntries depth items).map fun entry => (entry.1, MenuItem.ofConfig entry.2)
  | [], depth => rfl
  | item :: rest, depth => by
      rw [itemsOfConfigs, itemEntries, configEntries, List.map_append,
        entries_of_config item depth, entries_of_configs rest depth]

end

/-- `MenuItemConfig::validate` without the children. -/
def validateStep (ledger : List String × Nat) (entry : Nat × MenuItemConfig) :
    Except String (List String × Nat) :=
  if 8 < entry.1 then .error "native menu nesting cannot exceed eight levels"
  else
    match entry.2 with
    | ⟨kind, id, label, _, checked, accelerator, items⟩ =>
        match kind with
        | .separator =>
            if id ≠ "" || label ≠ "" || checked || accelerator.isSome || !items.isEmpty then
              .error "menu separators cannot define identity, text, state, or children"
            else .ok (ledger.1, ledger.2 + 1)
        | .command | .checkbox => do
            validateIdentifier id "menu item"
            validateText label "menu item label" 80 false
            if ledger.1.contains id then
              .error ("menu item identifier " ++ debugText id ++ " is duplicated")
            else if !items.isEmpty then
              .error ("menu item " ++ debugText id ++ " cannot contain children")
            else if kind = .command && checked then
              .error ("command menu item " ++ debugText id ++ " cannot be checked")
            else
              match accelerator with
              | some accelerator =>
                  validateAccelerator accelerator
                  .ok (id :: ledger.1, ledger.2 + 1)
              | none => .ok (id :: ledger.1, ledger.2 + 1)
        | .submenu => do
            validateIdentifier id "submenu"
            validateText label "submenu label" 80 false
            if ledger.1.contains id then
              .error ("menu item identifier " ++ debugText id ++ " is duplicated")
            else if checked || accelerator.isSome || items.isEmpty then
              .error ("submenu " ++ debugText id ++
                " must contain children and cannot be checked or accelerated")
            else .ok (id :: ledger.1, ledger.2 + 1)

/-- The host checks an item and then its children; only a submenu has any. -/
theorem validate_item_step (depth : Nat) (ids : List String) (count : Nat)
    (item : MenuItemConfig) : validateMenuItem depth ids count item =
      (validateStep (ids, count) (depth, item)).bind fun ledger =>
        validateMenuItems (depth + 1) ledger.1 ledger.2 item.items := by
  obtain ⟨kind, id, label, enabled, checked, accelerator, items⟩ := item
  rw [validateMenuItem.eq_def, validateStep]
  dsimp only
  by_cases hdeep : 8 < depth
  · rw [if_pos hdeep, if_pos hdeep]
    rfl
  · rw [if_neg hdeep, if_neg hdeep]
    -- an item that is no submenu is refused with children and has none to go on with otherwise
    have hleaf : ∀ ledger : List String × Nat, items.isEmpty = true →
        validateMenuItems (depth + 1) ledger.1 ledger.2 items = .ok ledger := by
      intro ledger hitems
      rw [List.isEmpty_iff.mp hitems]
      rfl
    cases kind with
    | separator =>
        dsimp only
        split
        · rfl
        · rename_i h
          exact (hleaf _ (by simp_all)).symm
    | command | checkbox =>
        dsimp only [bind, Except.bind]
        cases validateIdentifier id "menu item" with
        | error error => rfl
        | ok =>
            cases validateText label "menu item label" 80 false with
            | error error => rfl
            | ok =>
                dsimp only
                split
                · rfl
                · split
                  · rfl
                  · rename_i hitems
                    have hleaf := fun ledger => hleaf ledger (by simpa using hitems)
                    split
                    · rfl
                    · cases accelerator with
                      | none => exact (hleaf _).symm
                      | some accelerator =>
                          dsimp only
                          cases validateAccelerator accelerator with
                          | error error => rfl
                          | ok => exact (hleaf _).symm
    | submenu =>
        dsimp only [bind, Except.bind]
        cases validateIdentifier id "submenu" with
        | error error => rfl
        | ok =>
            cases validateText label "submenu label" 80 false with
            | error error => rfl
            | ok =>
                dsimp only
                split
                · rfl
                · split
                  · rfl
                  · rfl

mutual

theorem validate_item_fold : ∀ (item : MenuItemConfig) (depth : Nat) (ids : List String)
    (count : Nat), validateMenuItem depth ids count item =
      (configEntriesOf depth item).foldlM validateStep (ids, count)
  | ⟨kind, id, label, enabled, checked, accelerator, items⟩, depth, ids, count => by
      rw [validate_item_step, configEntriesOf, List.foldlM_cons]
      refine congrArg _ (funext fun ledger => ?_)
      exact validate_items_fold items (depth + 1) ledger.1 ledger.2

/-- The check of the host is a loop over the items in their order. -/
theorem validate_items_fold : ∀ (items : List MenuItemConfig) (depth : Nat) (ids : List String)
    (count : Nat), validateMenuItems depth ids count items =
      (configEntries depth items).foldlM validateStep (ids, count)
  | [], depth, ids, count => rfl
  | item :: rest, depth, ids, count => by
      rw [validateMenuItems, configEntries, List.foldlM_append, validate_item_fold item]
      refine congrArg _ (funext fun ledger => ?_)
      exact validate_items_fold rest depth ledger.1 ledger.2

end

/-- What the host wants of an item. -/
def HostItem (item : MenuItemConfig) : Prop :=
  (MenuItem.ofConfig item).Shaped ∧ (item.kind ≠ .separator → IdentifierBytes (osString item.id) ∧
    (Printable item.label ∧ item.label.utf8ByteSize ≤ 80) ∧
    ∀ accelerator ∈ item.accelerator, validateAccelerator accelerator = .ok ())

/-- The identifier of a description, where it has one. -/
def configKey (item : MenuItemConfig) : Option String :=
  if item.kind = .separator then none else some item.id

theorem items_of_configs_empty {items : List MenuItemConfig} :
    itemsOfConfigs items = [] ↔ items = [] := by
  cases items with
  | nil => exact iff_of_true rfl rfl
  | cons item rest => exact iff_of_false nofun nofun

theorem validate_enters : Enters validateStep (fun entry => entry.1 ≤ 8 ∧ HostItem entry.2)
    (fun entry => configKey entry.2) Prod.fst
    fun ledger entry => ((configKey entry.2).toList ++ ledger.1, ledger.2 + 1) where
  keys_enter := fun _ _ => rfl
  step_ok := by
    intro ledger entry ledger'
    obtain ⟨depth, ⟨kind, id, label, enabled, checked, accelerator, items⟩⟩ := entry
    unfold validateStep HostItem MenuItem.Shaped configKey
    rw [MenuItem.ofConfig]
    dsimp only
    by_cases hdeep : 8 < depth
    · rw [if_pos hdeep]
      exact iff_of_false nofun fun h => by omega
    · rw [if_neg hdeep]
      have hdepth : depth ≤ 8 := by omega
      cases kind with
      | separator =>
          dsimp only
          split
          · rename_i h
            refine iff_of_false nofun fun hok => ?_
            simp_all [os_string_empty, items_of_configs_empty]
          · rename_i h
            have hshape : osString id = [] ∧ osString label = [] ∧ checked = false ∧
                accelerator.map osString = none ∧ itemsOfConfigs items = [] := by
              simp_all [os_string_empty, items_of_configs_empty]
            rw [Except.ok.injEq]
            constructor
            · exact fun heq => ⟨⟨hdepth, hshape, fun h => absurd rfl h⟩, nofun, heq.symm⟩
            · exact fun hok => hok.2.2.symm
      | command =>
          simp only [check_bind_ok, validate_identifier_bytes, validate_text_iff]
          by_cases hduplicate : id ∈ ledger.1
          · simp [hduplicate]
          · cases accelerator with
            | none =>
                cases items <;> cases checked <;>
                  simp [hduplicate, hdepth, items_of_configs_empty, and_assoc, @eq_comm _ ledger']
            | some accelerator =>
                cases items <;> cases checked <;>
                  simp [hduplicate, hdepth, check_bind_ok, items_of_configs_empty, and_assoc,
                    @eq_comm _ ledger']
      | checkbox =>
          simp only [check_bind_ok, validate_identifier_bytes, validate_text_iff]
          by_cases hduplicate : id ∈ ledger.1
          · simp [hduplicate]
          · cases accelerator with
            | none =>
                cases items <;>
                  simp [hduplicate, hdepth, items_of_configs_empty, and_assoc, @eq_comm _ ledger']
            | some accelerator =>
                cases items <;>
                  simp [hduplicate, hdepth, check_bind_ok, items_of_configs_empty, and_assoc,
                    @eq_comm _ ledger']
      | submenu =>
          simp only [check_bind_ok, validate_identifier_bytes, validate_text_iff]
          by_cases hduplicate : id ∈ ledger.1
          · simp [hduplicate]
          · cases accelerator with
            | none =>
                cases items <;> cases checked <;>
                  simp [hduplicate, hdepth, items_of_configs_empty, and_assoc, @eq_comm _ ledger']
            | some accelerator => simp [hduplicate]

/-! ## The check of a shell -/

/-- The host accepts the items of a menu. -/
def HostItems (items : List MenuItemConfig) : Prop :=
  (∀ entry ∈ configEntries 1 items, entry.1 ≤ 8 ∧ HostItem entry.2) ∧
    ((configEntries 1 items).filterMap fun entry => configKey entry.2).Nodup ∧
    (configEntries 1 items).length ≤ 256

theorem validate_items_iff (items : List MenuItemConfig) :
    (∃ ledger, validateMenuItems 1 [] 0 items = .ok ledger ∧ ledger.2 ≤ 256) ↔
      HostItems items := by
  have hfold := fold_ledger validate_enters (configEntries 1 items) ([], 0)
  rw [← validate_items_fold] at hfold
  have hcount : ∀ (entries : List (Nat × MenuItemConfig)) (ledger : List String × Nat),
      (entries.foldl (fun ledger entry =>
        ((configKey entry.2).toList ++ ledger.1, ledger.2 + 1)) ledger).2 =
        ledger.2 + entries.length := by
    intro entries
    induction entries with
    | nil => exact fun _ => rfl
    | cons entry rest ih =>
        intro ledger
        rw [List.foldl_cons, ih, List.length_cons]
        omega
  have hsize := hcount (configEntries 1 items) ([], 0)
  constructor
  · intro h
    obtain ⟨ledger, hledger, hsmall⟩ := h
    obtain ⟨hgood, hnodup, -, rfl⟩ := (hfold ledger).mp hledger
    exact ⟨hgood, hnodup, by omega⟩
  · intro h
    obtain ⟨hgood, hnodup, hsmall⟩ := h
    exact ⟨_, (hfold _).mpr ⟨hgood, hnodup, fun _ _ => List.not_mem_nil, rfl⟩, by omega⟩

/-- What the host wants of a menu and its tray. -/
def HostMenu (menu : MenuConfig) (tray : TrayConfig) : Prop :=
  validateIdentifier menu.id "menu" = .ok () ∧
    validateText menu.label "menu label" 80 false = .ok () ∧ menu.items ≠ [] ∧
    HostItems menu.items ∧ tray.validate = .ok () ∧ tray.menuId = menu.id

theorem shell_validate_iff (menus : List MenuConfig) (tray : Option TrayConfig) :
    ShellConfig.validate ⟨menus, tray, [], []⟩ = .ok () ↔ (menus = [] ∧ tray = none) ∨
      ∃ menu tray', menus = [menu] ∧ tray = some tray' ∧ HostMenu menu tray' := by
  match menus, tray with
  | [], none => exact iff_of_true rfl (.inl ⟨rfl, rfl⟩)
  | [], some tray =>
      refine iff_of_false (fun h => ?_) (by simp)
      unfold ShellConfig.validate at h
      obtain ⟨⟨ids, count⟩, hids, h⟩ := except_bind_ok.mp h
      cases hids
      obtain ⟨-, h⟩ := check_bind_ok.mp h
      obtain ⟨-, h⟩ := check_bind_ok.mp h
      obtain ⟨-, h⟩ := check_bind_ok.mp h
      obtain ⟨-, h⟩ := check_bind_ok.mp h
      cases h
  | menu :: [], none =>
      refine iff_of_false (fun h => ?_) (by simp)
      unfold ShellConfig.validate at h
      obtain ⟨⟨ids, count⟩, -, h⟩ := except_bind_ok.mp h
      obtain ⟨-, h⟩ := check_bind_ok.mp h
      obtain ⟨-, h⟩ := check_bind_ok.mp h
      obtain ⟨h, -⟩ := check_bind_ok.mp h
      cases h
  | menu :: [], some tray =>
      have hmenus : ∀ result, validateMenus [] [] 0 [menu] = .ok result ↔
          ∃ ledger, menu.validate [] 0 = .ok ledger ∧ result = ([menu.id], ledger.2) := by
        intro result
        rw [validateMenus, except_bind_ok]
        refine exists_congr fun ledger => and_congr_right fun _ => ?_
        show Except.ok ([menu.id], ledger.2) = Except.ok result ↔ _
        rw [Except.ok.injEq, eq_comm]
      have hmenu : (∃ ledger, menu.validate [] 0 = .ok ledger ∧ ledger.2 ≤ 256) ↔
          validateIdentifier menu.id "menu" = .ok () ∧
            validateText menu.label "menu label" 80 false = .ok () ∧ menu.items ≠ [] ∧
            HostItems menu.items := by
        rw [← validate_items_iff, MenuConfig.validate]
        simp only [check_bind_ok]
        cases menu.items with
        | nil => simp
        | cons item rest =>
            rw [if_neg (by simp)]
            simp only [ne_eq, reduceCtorEq, not_false_iff, true_and, and_assoc, exists_and_left]
      unfold ShellConfig.validate
      rw [except_bind_ok]
      constructor
      · intro h
        obtain ⟨result, hresult, h⟩ := h
        obtain ⟨ledger, hledger, rfl⟩ := (hmenus result).mp hresult
        obtain ⟨hsmall, h⟩ := check_bind_ok.mp h
        obtain ⟨-, h⟩ := check_bind_ok.mp h
        obtain ⟨-, h⟩ := check_bind_ok.mp h
        obtain ⟨htray, h⟩ := check_bind_ok.mp h
        have hcount := refuse_if_ok.mp hsmall
        rw [decide_eq_false_iff_not, Nat.not_lt] at hcount
        obtain ⟨hid, hlabel, hitems, hhost⟩ := hmenu.mp ⟨ledger, hledger, hcount⟩
        refine .inr ⟨menu, tray, rfl, rfl, hid, hlabel, hitems, hhost, htray, ?_⟩
        split at h
        · cases h
        · rename_i hregistered
          simpa using hregistered
      · intro h
        obtain h | ⟨menu', tray', hlist, hsome, hid, hlabel, hitems, hhost, htray, hregistered⟩ := h
        · cases h.1
        · cases hlist
          cases hsome
          obtain ⟨ledger, hledger, hcount⟩ := hmenu.mpr ⟨hid, hlabel, hitems, hhost⟩
          refine ⟨_, (hmenus _).mpr ⟨ledger, hledger, rfl⟩, ?_⟩
          have hsmall : refuseIf (decide (256 < ledger.2))
              "native menus cannot contain more than 256 items" = .ok () :=
            refuse_if_ok.mpr (by simpa using hcount)
          refine check_bind_ok.mpr ⟨hsmall, check_bind_ok.mpr ⟨rfl, check_bind_ok.mpr ⟨rfl,
            check_bind_ok.mpr ⟨htray, ?_⟩⟩⟩⟩
          rw [if_neg (by simp [hregistered])]
          rfl
  | menu :: other :: rest, tray =>
      refine iff_of_false (fun h => ?_) (by simp)
      unfold ShellConfig.validate at h
      obtain ⟨⟨ids, count⟩, -, h⟩ := except_bind_ok.mp h
      obtain ⟨-, h⟩ := check_bind_ok.mp h
      obtain ⟨h, -⟩ := check_bind_ok.mp h
      cases h

/-! ## Descriptions -/

/-- No identifier ends in a line feed, and every text is printable UTF-8. -/
def StrictTexts (menu : Menu) (tray : Tray) : Prop :=
  (∀ name ∈ menu.names, name.getLast? ≠ some 10) ∧
    ∀ label ∈ menu.labels tray, PrintableBytes label.1

/-- What the host wants of an item, in bytes. -/
theorem host_item_iff (config : MenuItemConfig) : HostItem config ↔
    (MenuItem.ofConfig config).Shaped ∧ ((MenuItem.ofConfig config).kind ≠ .separator →
      IdentifierBytes (MenuItem.ofConfig config).id ∧
      (PrintableBytes (MenuItem.ofConfig config).label ∧
        (MenuItem.ofConfig config).label.length ≤ 80) ∧
      ∀ accelerator ∈ (MenuItem.ofConfig config).accelerator,
        Accelerator.assert accelerator = .ok ()) := by
  obtain ⟨kind, id, label, enabled, checked, accelerator, items⟩ := config
  rw [HostItem, MenuItem.ofConfig]
  dsimp only
  rw [printable_iff]
  refine and_congr_right fun _ => imp_congr_right fun _ => and_congr_right fun _ =>
    and_congr_right fun _ => ?_
  cases accelerator with
  | none => exact iff_of_true nofun nofun
  | some accelerator =>
      simp only [Option.mem_def, Option.some_inj, Option.map_some, forall_eq']
      exact (same_accelerators accelerator).symm

theorem config_key (config : MenuItemConfig) :
    (MenuItem.ofConfig config).key = (configKey config).map osString := by
  obtain ⟨kind, id, label, enabled, checked, accelerator, items⟩ := config
  rw [MenuItem.ofConfig, MenuItem.key, configKey]
  dsimp only
  by_cases hkind : kind = .separator
  · rw [if_pos hkind, if_pos hkind]
    rfl
  · rw [if_neg hkind, if_neg hkind]
    rfl

/-- What the host wants of the items, in bytes. -/
theorem host_items_iff (configs : List MenuItemConfig) : HostItems configs ↔
    (∀ entry ∈ itemEntries 1 (itemsOfConfigs configs), entry.1 ≤ 8 ∧ entry.2.Shaped ∧
      (entry.2.kind ≠ .separator → IdentifierBytes entry.2.id ∧
        (PrintableBytes entry.2.label ∧ entry.2.label.length ≤ 80) ∧
        ∀ accelerator ∈ entry.2.accelerator, Accelerator.assert accelerator = .ok ())) ∧
      (itemIds (itemsOfConfigs configs)).Nodup ∧
      (itemEntries 1 (itemsOfConfigs configs)).length ≤ 256 := by
  have hids : itemIds (itemsOfConfigs configs) =
      ((configEntries 1 configs).filterMap fun entry => configKey entry.2).map osString := by
    rw [itemIds, entries_of_configs, List.filterMap_map, List.map_filterMap]
    exact congrArg (fun f => List.filterMap f _) (funext fun entry => config_key entry.2)
  rw [hids, entries_of_configs, List.length_map, List.forall_mem_map,
    List.nodup_map_iff fun _ _ => os_string_injective]
  refine and_congr_left fun _ => forall₂_congr fun entry _ => and_congr_right fun _ => ?_
  exact host_item_iff entry.2

/-- The texts of an item are UTF-8. -/
def MenuItem.Textual (item : MenuItem) : Prop :=
  (∃ text, osString text = item.id) ∧ (∃ text, osString text = item.label) ∧
    ∀ accelerator ∈ item.accelerator, ∃ text, osString text = accelerator

mutual

theorem item_described : ∀ (item : MenuItem) (depth : Nat),
    (∀ entry ∈ item.entries depth, entry.2.Textual) → ∃ config, MenuItem.ofConfig config = item
  | ⟨kind, id, label, enabled, checked, accelerator, items⟩, depth, h => by
      rw [MenuItem.entries, List.forall_mem_cons] at h
      obtain ⟨⟨⟨id, rfl⟩, ⟨label, rfl⟩, haccelerator⟩, hitems⟩ := h
      obtain ⟨configs, rfl⟩ := items_described items (depth + 1) hitems
      cases accelerator with
      | none => exact ⟨⟨kind, id, label, enabled, checked, none, configs⟩, rfl⟩
      | some accelerator =>
          obtain ⟨accelerator, rfl⟩ := haccelerator accelerator rfl
          exact ⟨⟨kind, id, label, enabled, checked, some accelerator, configs⟩, rfl⟩

/-- Items whose texts are UTF-8 have a description. -/
theorem items_described : ∀ (items : List MenuItem) (depth : Nat),
    (∀ entry ∈ itemEntries depth items, entry.2.Textual) →
      ∃ configs, itemsOfConfigs configs = items
  | [], depth, h => ⟨[], rfl⟩
  | item :: rest, depth, h => by
      rw [itemEntries, List.forall_mem_append] at h
      obtain ⟨config, rfl⟩ := item_described item depth h.1
      obtain ⟨configs, rfl⟩ := items_described rest depth h.2
      exact ⟨config :: configs, rfl⟩

end

/-- The host accepts a menu in order down to the eighth level whose texts are strict. -/
theorem described_iff (menu : Menu) (tray : Tray) :
    (∃ menuConfig trayConfig, Menu.ofConfig menuConfig = menu ∧ Tray.ofConfig trayConfig = tray ∧
      HostMenu menuConfig trayConfig) ↔
      InOrder menu tray ∧ StrictTexts menu tray ∧ menu.Levels 8 := by
  constructor
  · intro h
    obtain ⟨menuConfig, trayConfig, rfl, rfl, hid, hlabel, hsome, hitems, htray, hregistered⟩ := h
    obtain ⟨hentries, hids, hcount⟩ := (host_items_iff menuConfig.items).mp hitems
    obtain ⟨-, htooltip⟩ := check_bind_ok.mp htray
    rw [validate_identifier_bytes] at hid
    rw [validate_text_iff] at hlabel htooltip
    have hlabels : ∀ label ∈ (Menu.ofConfig menuConfig).labels (Tray.ofConfig trayConfig),
        PrintableBytes label.1 ∧ label.1.length ≤ label.2 := by
      refine forall_labels.mpr ⟨?_, ?_, fun entry hentry hkind => ?_⟩
      · exact ⟨printable_iff.mpr hlabel.1, hlabel.2⟩
      · exact ⟨printable_iff.mpr htooltip.1, htooltip.2⟩
      · exact ((hentries entry hentry).2.2 hkind).2.1
    have hnames : ∀ name ∈ (Menu.ofConfig menuConfig).names, IdentifierBytes name :=
      forall_names.mpr ⟨hid, fun entry hentry hkind => ((hentries entry hentry).2.2 hkind).1⟩
    refine ⟨⟨congrArg osString hregistered, fun hempty => hsome ?_, hcount, hids,
      fun entry hentry => (hentries entry hentry).2.1, ?_,
      fun name hname => (strict_name_iff.mp (hnames name hname)).1,
      fun label hlabel => ⟨printable_trim (hlabels label hlabel).1, (hlabels label hlabel).2⟩⟩,
      ⟨fun name hname => (strict_name_iff.mp (hnames name hname)).2,
        fun label hlabel => (hlabels label hlabel).1⟩,
      fun entry hentry => (hentries entry hentry).1⟩
    · exact items_of_configs_empty.mp hempty
    · intro entry hentry accelerator hmem
      obtain ⟨-, hshaped, htexts⟩ := hentries entry hentry
      exact (htexts (hshaped.accelerated hmem)).2.2 accelerator hmem
  · intro h
    obtain ⟨horder, ⟨hlast, hprintable⟩, hlevels⟩ := h
    have hnames : ∀ name ∈ menu.names, IdentifierBytes name :=
      fun name hname => strict_name_iff.mpr ⟨horder.names name hname, hlast name hname⟩
    obtain ⟨hid, hitemNames⟩ := forall_names.mp hnames
    obtain ⟨⟨label, hlabel, hlabelText⟩, ⟨tooltip, htooltip, htooltipText⟩, hitemLabels⟩ :=
      forall_labels.mp hprintable
    obtain ⟨⟨-, hlabelSize⟩, ⟨-, htooltipSize⟩, hlabelSizes⟩ := forall_labels.mp horder.labels
    have htextual : ∀ entry ∈ itemEntries 1 menu.items, entry.2.Textual := by
      intro entry hentry
      by_cases hkind : entry.2.kind = .separator
      · have hshaped := horder.shaped entry hentry
        unfold MenuItem.Shaped at hshaped
        rw [hkind] at hshaped
        obtain ⟨hnoId, hnoLabel, -, hnone, -⟩ := hshaped
        refine ⟨⟨"", hnoId.symm⟩, ⟨"", hnoLabel.symm⟩, fun accelerator hmem => ?_⟩
        rw [hnone] at hmem
        cases hmem
      · obtain ⟨text, htext, -⟩ := hitemLabels entry hentry hkind
        exact ⟨identifier_text (hitemNames entry hentry hkind), ⟨text, htext⟩,
          fun accelerator hmem => accelerator_text (horder.accelerators entry hentry _ hmem)⟩
    obtain ⟨configs, hconfigs⟩ := items_described menu.items 1 htextual
    obtain ⟨id, hidText⟩ := identifier_text hid
    have hregistered := horder.registered
    obtain ⟨menuId, menuLabel, menuItems⟩ := menu
    obtain ⟨trayMenu, trayTooltip, behavior⟩ := tray
    dsimp only at hlabel htooltip hconfigs hidText hregistered
    subst hlabel htooltip hconfigs hidText hregistered
    refine ⟨⟨id, label, configs⟩, ⟨id, tooltip, behavior⟩, rfl, rfl, ?_, ?_, ?_, ?_, ?_, rfl⟩
    · exact validate_identifier_bytes.mpr hid
    · exact validate_text_iff.mpr ⟨hlabelText, hlabelSize⟩
    · exact fun hempty => horder.nonempty (items_of_configs_empty.mpr hempty)
    · refine (host_items_iff configs).mpr ⟨fun entry hentry => ?_, horder.ids, horder.count⟩
      refine ⟨hlevels entry hentry, horder.shaped entry hentry, fun hkind => ?_⟩
      exact ⟨hitemNames entry hentry hkind,
        ⟨hitemLabels entry hentry hkind, (hlabelSizes entry hentry hkind).2⟩,
        horder.accelerators entry hentry⟩
    · exact check_bind_ok.mpr ⟨validate_identifier_bytes.mpr hid,
        validate_text_iff.mpr ⟨htooltipText, htooltipSize⟩⟩

theorem accepted_iff (shell : Shell) : shell.Accepted ↔ shell = ⟨[], none⟩ ∨
    ∃ menu tray, shell = ⟨[menu], some tray⟩ ∧ InOrder menu tray ∧ StrictTexts menu tray ∧
      menu.Levels 8 := by
  constructor
  · intro h
    obtain ⟨⟨menus, tray, shortcuts, quickActions⟩, rfl, rfl, rfl, hvalid⟩ := h
    obtain ⟨rfl, rfl⟩ | ⟨menu, tray, rfl, rfl, hhost⟩ := (shell_validate_iff menus tray).mp hvalid
    · exact .inl rfl
    · exact .inr ⟨Menu.ofConfig menu, Tray.ofConfig tray, rfl,
        (described_iff _ _).mp ⟨menu, tray, rfl, rfl, hhost⟩⟩
  · intro h
    obtain rfl | ⟨menu, tray, rfl, hhost⟩ := h
    · exact ⟨{}, rfl, rfl, rfl, rfl⟩
    · obtain ⟨menuConfig, trayConfig, rfl, rfl, hmenu⟩ := (described_iff menu tray).mpr hhost
      exact ⟨⟨[menuConfig], some trayConfig, [], []⟩, rfl, rfl, rfl,
        (shell_validate_iff _ _).mpr (.inr ⟨menuConfig, trayConfig, rfl, rfl, hmenu⟩)⟩

/-! ## The same menus -/

/-- Where PHP and the host differ: a menu in order for its tray, down to the seventh level with a
text that is not strict, or with strict texts and an item on the eighth level. -/
def Shell.Differs (shell : Shell) : Prop :=
  ∃ menu tray, shell = ⟨[menu], some tray⟩ ∧ InOrder menu tray ∧
    ((menu.Levels 7 ∧ ¬ StrictTexts menu tray) ∨
      (menu.Levels 8 ∧ ¬ menu.Levels 7 ∧ StrictTexts menu tray))

/-- PHP builds what the host accepts, except where the two differ. -/
theorem same_menus_iff (shell : Shell) :
    (shell.Constructed ↔ shell.Accepted) ↔ ¬ shell.Differs := by
  rw [constructed_iff, accepted_iff]
  simp only [built_iff]
  have hmono : ∀ menu : Menu, menu.Levels 7 → menu.Levels 8 :=
    fun menu h entry hentry => Nat.le_succ_of_le (h entry hentry)
  constructor
  · intro hsame hdiffers
    obtain ⟨menu, tray, rfl, horder, hdiffers⟩ := hdiffers
    have hinjective : ∀ menu' tray', (⟨[menu], some tray⟩ : Shell) = ⟨[menu'], some tray'⟩ →
        menu' = menu ∧ tray' = tray := by
      intro menu' tray' heq
      cases heq
      exact ⟨rfl, rfl⟩
    obtain ⟨hlevels, hloose⟩ | ⟨hlevels, hdeep, hstrict⟩ := hdiffers
    · obtain hnone | ⟨menu', tray', heq, -, hstrict, -⟩ :=
        hsame.mp (.inr ⟨menu, tray, rfl, horder, hlevels⟩)
      · cases hnone
      · obtain ⟨rfl, rfl⟩ := hinjective menu' tray' heq
        exact hloose hstrict
    · obtain hnone | ⟨menu', tray', heq, -, hshallow⟩ :=
        hsame.mpr (.inr ⟨menu, tray, rfl, horder, hstrict, hlevels⟩)
      · cases hnone
      · obtain ⟨rfl, rfl⟩ := hinjective menu' tray' heq
        exact hdeep hshallow
  · intro hsame
    refine or_congr_right ?_
    constructor
    · intro h
      obtain ⟨menu, tray, rfl, horder, hlevels⟩ := h
      refine ⟨menu, tray, rfl, horder, ?_, hmono menu hlevels⟩
      by_contra hloose
      exact hsame ⟨menu, tray, rfl, horder, .inl ⟨hlevels, hloose⟩⟩
    · intro h
      obtain ⟨menu, tray, rfl, horder, hstrict, hlevels⟩ := h
      refine ⟨menu, tray, rfl, horder, ?_⟩
      by_contra hdeep
      exact hsame ⟨menu, tray, rfl, horder, .inr ⟨hlevels, hdeep, hstrict⟩⟩

/-- A menu with one command below so many submenus. -/
def nestedItem : Nat → MenuItemConfig
  | 0 => ⟨.command, "open", "Open", true, false, none, []⟩
  | n + 1 => ⟨.submenu, String.ofList ('m' :: List.replicate n '1'), "More", true, false, none,
      [nestedItem n]⟩

/-- A shell with one item in its menu. -/
def shellWith (item : MenuItemConfig) : ShellConfig :=
  { menus := [⟨"app", "App", [item]⟩], tray := some ⟨"app", "App", .exit⟩ }

/-- PHP refuses eight levels, which the host accepts, and it accepts a tab in a label, which the
host refuses. -/
theorem menus_differ :
    ((shellWith (nestedItem 7)).validate = .ok () ∧
      ¬ (Shell.ofConfig (shellWith (nestedItem 7))).Constructed) ∧
    ((Shell.ofConfig
        (shellWith ⟨.command, "open", "Open\tfile", true, false, none, []⟩)).Constructed ∧
      ¬ (Shell.ofConfig
        (shellWith ⟨.command, "open", "Open\tfile", true, false, none, []⟩)).Accepted) := by
  refine ⟨⟨by decide +kernel, fun h => ?_⟩, ⟨by decide +kernel, _, rfl⟩, fun h => ?_⟩
  · have hrefused : (Shell.ofConfig (shellWith (nestedItem 7))).construct ≠ .ok () := by
      decide +kernel
    exact hrefused h.1
  · obtain hnone | ⟨menu, tray, heq, -, ⟨-, hlabels⟩, -⟩ := (accepted_iff _).mp h
    · cases hnone
    · cases heq
      obtain ⟨-, -, hitems⟩ := forall_labels.mp hlabels
      have hlabel := hitems _ List.mem_cons_self (by decide)
      have hprintable : Printable "Open\tfile" := printable_iff.mp hlabel
      exact absurd (hprintable.2 '\t' (by decide)) (by decide)

end PamDesktop.Php
