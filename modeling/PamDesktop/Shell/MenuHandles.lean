import PamDesktop.Shell.MenuUpdates

/-!
# The menu on macOS and Windows

There the tray is given a menu of native items, and a table leads from an identifier to its item;
on Linux the tray searches the configuration and the menu is made from it whenever it is shown.
`menus_agree` says that the user sees the same menu, whatever has been updated.
-/

namespace PamDesktop.Shell

open Foundations Protocol Php

/-! ## What the user sees -/

/-- An item as the desktop shows it. -/
inductive ShownItem where
  | command (label : String) (enabled : Bool) (accelerator : Option String)
  | checkbox (label : String) (enabled checked : Bool) (accelerator : Option String)
  | separator
  | submenu (label : String) (enabled : Bool) (items : List ShownItem)

mutual

/-- `linux_menu_item`. -/
def linuxMenuItem : MenuItemConfig → ShownItem
  | ⟨kind, _, label, enabled, checked, accelerator, items⟩ =>
      match kind with
      | .command => .command label enabled accelerator
      | .checkbox => .checkbox label enabled checked accelerator
      | .separator => .separator
      | .submenu => .submenu label enabled (linuxMenu items)
termination_by structural item => item

/-- `menu` of the tray on Linux. -/
def linuxMenu : List MenuItemConfig → List ShownItem
  | [] => []
  | item :: rest => linuxMenuItem item :: linuxMenu rest
termination_by structural items => items

end

/-! ## Native items -/

/-- A native item other than a separator. -/
structure NativeItem where
  label : String
  enabled : Bool
  checked : Bool
  accelerator : Option String

/-- The native item that is made for an item of the configuration. -/
def NativeItem.ofConfig (item : MenuItemConfig) : NativeItem :=
  ⟨item.label, item.enabled, item.checked, item.accelerator⟩

/-- `ItemHandle`: the kind of a native item and where it is among those that were made. -/
structure ItemHandle where
  kind : MenuItemKind
  object : Nat

/-- `BuiltItem`, with the items that were appended to a submenu. -/
inductive BuiltItem where
  | command (object : Nat)
  | checkbox (object : Nat)
  | separator
  | submenu (object : Nat) (items : List BuiltItem)

/-- The native items that have been made and the table of handles. -/
structure Natives where
  objects : List NativeItem
  handles : List (String × ItemHandle)

namespace Natives

/-- `with_id` of an item. -/
def make (natives : Natives) (item : MenuItemConfig) : Natives :=
  { natives with objects := natives.objects ++ [.ofConfig item] }

/-- `handles.insert`: what was inserted last is found first. -/
def insert (natives : Natives) (item : MenuItemConfig) (object : Nat) : Natives :=
  { natives with handles := (item.id, ⟨item.kind, object⟩) :: natives.handles }

end Natives

/-- The check of the accelerator of an item. -/
def parseAccelerator (parse : String → Except String Unit) (accelerator : Option String) :
    Except String Unit :=
  match (accelerator.map parse).getD (.ok ()) with
  | .ok () => .ok ()
  | .error error => .error ("cannot parse menu accelerator: " ++ error)

mutual

/-- `build_item`. -/
def buildItem (parse : String → Except String Unit) (natives : Natives) :
    MenuItemConfig → Except String (BuiltItem × Natives)
  | ⟨kind, id, label, enabled, checked, accelerator, items⟩ =>
      let item : MenuItemConfig := ⟨kind, id, label, enabled, checked, accelerator, items⟩
      let object := natives.objects.length
      match parseAccelerator parse accelerator with
      | .error error => .error error
      | .ok () =>
          match kind with
          | .command => .ok (.command object, (natives.make item).insert item object)
          | .checkbox => .ok (.checkbox object, (natives.make item).insert item object)
          | .separator => .ok (.separator, natives)
          | .submenu =>
              match buildItems parse (natives.make item) items with
              | .error error => .error error
              | .ok (built, natives) => .ok (.submenu object built, natives.insert item object)
termination_by structural item => item

/-- The loops of `build_menu` and of a submenu, with `append_to_menu` and `append_to_submenu`. -/
def buildItems (parse : String → Except String Unit) (natives : Natives) :
    List MenuItemConfig → Except String (List BuiltItem × Natives)
  | [] => .ok ([], natives)
  | item :: rest =>
      match buildItem parse natives item with
      | .error error => .error error
      | .ok (first, natives) =>
          match buildItems parse natives rest with
          | .error error => .error error
          | .ok (built, natives) => .ok (first :: built, natives)
termination_by structural items => items

end

/-- The menu of the tray: the items in it, and the native items with their handles. -/
structure NativeMenu where
  built : List BuiltItem
  natives : Natives

/-- `build_menu`. -/
def buildMenu (parse : String → Except String Unit) (menu : MenuConfig) :
    Except String NativeMenu :=
  match buildItems parse ⟨[], []⟩ menu.items with
  | .error error => .error error
  | .ok (built, natives) => .ok ⟨built, natives⟩

/-- A change of a native item. -/
def Natives.modify (natives : Natives) (object : Nat) (f : NativeItem → NativeItem) : Natives :=
  { natives with objects := natives.objects.modify object f }

/-- `set_menu_enabled` and `set_menu_checked`. -/
def NativeMenu.apply (menu : NativeMenu) (update : MenuUpdate) : Except String Unit × NativeMenu :=
  match menu.natives.handles.lookup update.id, update with
  | none, _ => (.error ("menu item " ++ debugText update.id ++ " was not found"), menu)
  | some handle, .enabled _ enabled =>
      (.ok (), { menu with
        natives := menu.natives.modify handle.object fun item => { item with enabled } })
  | some handle, .checked _ checked =>
      if handle.kind = .checkbox then
        (.ok (), { menu with
          natives := menu.natives.modify handle.object fun item => { item with checked } })
      else (.error "only checkbox menu items accept checked state", menu)

/-- The menu after a sequence of updates. -/
def NativeMenu.afterUpdates (menu : NativeMenu) (updates : List MenuUpdate) : NativeMenu :=
  updates.foldl (fun menu update => (menu.apply update).2) menu

mutual

/-- What is shown of a native item, if it is there. -/
def showItem (objects : List NativeItem) : BuiltItem → Option ShownItem
  | .command object => objects[object]?.map fun item =>
      .command item.label item.enabled item.accelerator
  | .checkbox object => objects[object]?.map fun item =>
      .checkbox item.label item.enabled item.checked item.accelerator
  | .separator => some .separator
  | .submenu object items =>
      match objects[object]?, showItems objects items with
      | some item, some shown => some (.submenu item.label item.enabled shown)
      | _, _ => none
termination_by structural item => item

def showItems (objects : List NativeItem) : List BuiltItem → Option (List ShownItem)
  | [] => some []
  | item :: rest =>
      match showItem objects item, showItems objects rest with
      | some first, some shown => some (first :: shown)
      | _, _ => none
termination_by structural items => items

end

/-- The menu that the user sees. -/
def NativeMenu.shown (menu : NativeMenu) : Option (List ShownItem) :=
  showItems menu.natives.objects menu.built

/-! ## What is built -/

/-- The items of a menu that native items are made for, in the order in which they are made. -/
def solidItems (items : List MenuItemConfig) : List MenuItemConfig :=
  (allItems items).filter fun item => item.kind ≠ .separator

theorem solid_items_cons (item : MenuItemConfig) (rest : List MenuItemConfig) :
    solidItems (item :: rest) = solidItems [item] ++ solidItems rest := by
  unfold solidItems
  rw [all_items_cons, all_items_cons item [], all_items_nil, List.append_nil, ← List.cons_append,
    List.filter_append]

/-- The native item for an item comes before those inside it. -/
theorem solid_item {item : MenuItemConfig} (h : item.kind ≠ .separator) :
    solidItems [item] = item :: solidItems item.items := by
  unfold solidItems
  rw [all_items_cons, all_items_nil, List.append_nil, List.filter_cons_of_pos (by simpa using h)]

/-- Only a submenu has items inside it. -/
def LeavesEmpty (items : List MenuItemConfig) : Prop :=
  ∀ item ∈ allItems items, item.kind ≠ .submenu → item.items = []

theorem LeavesEmpty.cons {item : MenuItemConfig} {rest : List MenuItemConfig}
    (h : LeavesEmpty (item :: rest)) :
    (item.kind ≠ .submenu → item.items = []) ∧ LeavesEmpty item.items ∧ LeavesEmpty rest := by
  unfold LeavesEmpty at h
  rw [all_items_cons] at h
  exact ⟨h item List.mem_cons_self,
    fun inner hinner => h inner (List.mem_cons_of_mem _ (List.mem_append_left _ hinner)),
    fun other hother => h other (List.mem_cons_of_mem _ (List.mem_append_right _ hother))⟩

theorem LeavesEmpty.split {item : MenuItemConfig} {rest : List MenuItemConfig}
    (h : LeavesEmpty (item :: rest)) : LeavesEmpty [item] ∧ LeavesEmpty rest := by
  obtain ⟨hleaf, hinside, hrest⟩ := h.cons
  refine ⟨fun inner hinner => ?_, hrest⟩
  rw [all_items_cons, all_items_nil, List.append_nil] at hinner
  obtain rfl | hinner := List.mem_cons.mp hinner
  · exact hleaf
  · exact hinside inner hinner

/-- The handles that have been inserted for these items, whose native items begin at `base`. -/
def Handled (base : Nat) (items : List MenuItemConfig) (entry : String × ItemHandle) : Prop :=
  ∃ index item, items[index]? = some item ∧ entry = (item.id, ⟨item.kind, base + index⟩)

theorem handled_append (base : Nat) (first second : List MenuItemConfig)
    (entry : String × ItemHandle) :
    Handled base (first ++ second) entry ↔
      Handled base first entry ∨ Handled (base + first.length) second entry := by
  unfold Handled
  constructor
  · rintro ⟨index, item, hitem, rfl⟩
    by_cases hlt : index < first.length
    · exact .inl ⟨index, item, by rwa [List.getElem?_append_left hlt] at hitem, rfl⟩
    · rw [List.getElem?_append_right (by omega)] at hitem
      exact .inr ⟨index - first.length, item, hitem, by
        rw [show base + first.length + (index - first.length) = base + index by omega]⟩
  · rintro (⟨index, item, hitem, rfl⟩ | ⟨index, item, hitem, rfl⟩)
    · have hlt := (List.getElem?_eq_some_iff.mp hitem).1
      exact ⟨index, item, by rwa [List.getElem?_append_left hlt], rfl⟩
    · refine ⟨first.length + index, item, ?_, by rw [Nat.add_assoc]⟩
      rw [List.getElem?_append_right (by omega), Nat.add_sub_cancel_left]
      exact hitem

theorem handled_cons (base : Nat) (item : MenuItemConfig) (rest : List MenuItemConfig)
    (entry : String × ItemHandle) :
    Handled base (item :: rest) entry ↔
      entry = (item.id, ⟨item.kind, base⟩) ∨ Handled (base + 1) rest entry := by
  rw [← List.singleton_append, handled_append]
  refine or_congr_left ?_
  constructor
  · rintro ⟨index, other, hother, rfl⟩
    obtain ⟨hlt, rfl⟩ := List.getElem?_eq_some_iff.mp hother
    obtain rfl : index = 0 := by simpa using hlt
    rfl
  · rintro rfl
    exact ⟨0, item, rfl, rfl⟩

/-- The native items from `base` on are those of the items as they have been changed. -/
def Holding (objects : List NativeItem) (base : Nat) (f : MenuItemConfig → MenuItemConfig)
    (items : List MenuItemConfig) : Prop :=
  items.map (fun item => NativeItem.ofConfig (mapItem f item)) <+: objects.drop base

theorem holding_append {objects : List NativeItem} {base : Nat}
    {f : MenuItemConfig → MenuItemConfig} {first second : List MenuItemConfig}
    (h : Holding objects base f (first ++ second)) :
    Holding objects base f first ∧ Holding objects (base + first.length) f second := by
  obtain ⟨rest, hrest⟩ := h
  rw [List.map_append, List.append_assoc] at hrest
  refine ⟨⟨_, hrest⟩, rest, ?_⟩
  rw [← List.drop_drop, ← hrest, List.drop_left' (List.length_map _)]

theorem holding_head {objects : List NativeItem} {base : Nat}
    {f : MenuItemConfig → MenuItemConfig} {item : MenuItemConfig} {rest : List MenuItemConfig}
    (h : Holding objects base f (item :: rest)) :
    objects[base]? = some (.ofConfig (mapItem f item)) ∧ Holding objects (base + 1) f rest := by
  obtain ⟨after, hafter⟩ := h
  rw [List.map_cons, List.cons_append] at hafter
  refine ⟨?_, after, ?_⟩
  · rw [← List.head?_drop, ← hafter]
    rfl
  · rw [← List.drop_drop, ← hafter]
    rfl

/-- A change of items that leaves their kinds. -/
def KeepsKind (f : MenuItemConfig → MenuItemConfig) : Prop := ∀ item, (f item).kind = item.kind

/-- What Linux shows of an item that has been changed. -/
theorem linux_menu_item_mapped {f : MenuItemConfig → MenuItemConfig} (hf : KeepsKind f)
    (item : MenuItemConfig) : linuxMenuItem (mapItem f item) =
      let native := NativeItem.ofConfig (mapItem f item)
      match item.kind with
      | .command => .command native.label native.enabled native.accelerator
      | .checkbox => .checkbox native.label native.enabled native.checked native.accelerator
      | .separator => .separator
      | .submenu => .submenu native.label native.enabled (linuxMenu (mapItems f item.items)) := by
  obtain ⟨kind, id, label, enabled, checked, accelerator, items⟩ := item
  have hkind := hf ⟨kind, id, label, enabled, checked, accelerator, []⟩
  rw [mapItem]
  cases hchanged : f ⟨kind, id, label, enabled, checked, accelerator, []⟩ with
  | mk kind' id' label' enabled' checked' accelerator' items' =>
      rw [hchanged] at hkind
      obtain rfl : kind' = kind := hkind
      cases kind' <;> rfl

/-- What building these items has added: a native item for every item that is no separator, a
handle for every native item, and what is shown of them as long as they are like the items. -/
structure Builds (natives : Natives) (items : List MenuItemConfig)
    (shows : List NativeItem → (MenuItemConfig → MenuItemConfig) → Prop) (natives' : Natives) :
    Prop where
  objects : natives'.objects = natives.objects ++ (solidItems items).map .ofConfig
  handles : ∀ entry, entry ∈ natives'.handles ↔
    entry ∈ natives.handles ∨ Handled natives.objects.length (solidItems items) entry
  shown : ∀ objects f, KeepsKind f →
    Holding objects natives.objects.length f (solidItems items) → shows objects f

variable {parse : String → Except String Unit}

/-- A command or a checkbox is one native item with a handle. -/
theorem leaf_builds {natives : Natives} {item : MenuItemConfig}
    {shows : List NativeItem → (MenuItemConfig → MenuItemConfig) → Prop}
    (hkind : item.kind ≠ .separator) (hleaf : item.items = [])
    (hshown : ∀ objects f, KeepsKind f →
      objects[natives.objects.length]? = some (.ofConfig (mapItem f item)) → shows objects f) :
    Builds natives [item] shows ((natives.make item).insert item natives.objects.length) := by
  have hsolid : solidItems [item] = [item] := by rw [solid_item hkind, hleaf]; rfl
  constructor
  case objects => rw [hsolid]; rfl
  case handles =>
    intro entry
    rw [hsolid, handled_cons]
    show entry ∈ (item.id, (⟨item.kind, natives.objects.length⟩ : ItemHandle)) :: _ ↔ _
    rw [List.mem_cons]
    constructor
    · rintro (rfl | hmem)
      · exact .inr (.inl rfl)
      · exact .inl hmem
    · rintro (hmem | rfl | ⟨index, other, hother, -⟩)
      · exact .inr hmem
      · exact .inl rfl
      · cases hother
  case shown =>
    intro objects f hf hholding
    rw [hsolid] at hholding
    exact hshown objects f hf (holding_head hholding).1

mutual

theorem build_item_builds : ∀ (item : MenuItemConfig) {natives natives' : Natives}
    {built : BuiltItem}, buildItem parse natives item = .ok (built, natives') →
      LeavesEmpty [item] → Builds natives [item] (fun objects f =>
        showItem objects built = some (linuxMenuItem (mapItem f item))) natives'
  | ⟨kind, id, label, enabled, checked, accelerator, items⟩, natives, natives', built, h,
      hleaves => by
      rw [buildItem.eq_def] at h
      dsimp only at h
      obtain ⟨hleaf, hinside, -⟩ := hleaves.cons
      split at h
      · cases h
      · cases kind with
        | separator =>
            cases h
            obtain rfl : items = [] := hleaf (by simp)
            constructor
            case objects => exact (List.append_nil _).symm
            case handles =>
              intro entry
              exact ⟨.inl, fun hany => hany.resolve_right fun ⟨_, _, hitem, _⟩ => nomatch hitem⟩
            case shown =>
              intro objects f hf _
              rw [showItem, linux_menu_item_mapped hf]
        | command =>
            cases h
            refine leaf_builds (by simp) (hleaf (by simp)) fun objects f hf hobject => ?_
            rw [showItem, hobject, linux_menu_item_mapped hf]
            rfl
        | checkbox =>
            cases h
            refine leaf_builds (by simp) (hleaf (by simp)) fun objects f hf hobject => ?_
            rw [showItem, hobject, linux_menu_item_mapped hf]
            rfl
        | submenu =>
            dsimp only at h
            split at h
            · cases h
            · rename_i inner natives'' hinner
              cases h
              have hinner := build_items_builds items hinner hinside
              have hsolid := @solid_item
                ⟨.submenu, id, label, enabled, checked, accelerator, items⟩ (by simp)
              have hlength : (natives.make
                  ⟨.submenu, id, label, enabled, checked, accelerator, items⟩).objects.length =
                    natives.objects.length + 1 := by
                simp [Natives.make]
              constructor
              case objects =>
                show natives''.objects = _
                rw [hinner.objects, hsolid, Natives.make, List.map_cons, List.append_assoc]
                rfl
              case handles =>
                intro entry
                show entry ∈ (id, (⟨.submenu, natives.objects.length⟩ : ItemHandle)) :: _ ↔ _
                rw [List.mem_cons, hinner.handles, hsolid, handled_cons, hlength]
                exact or_left_comm
              case shown =>
                intro objects f hf hholding
                rw [hsolid] at hholding
                obtain ⟨hobject, hholding⟩ := holding_head hholding
                rw [← hlength] at hholding
                rw [showItem, hobject, hinner.shown objects f hf hholding,
                  linux_menu_item_mapped hf]

/-- What is built of the items of a menu or a submenu. -/
theorem build_items_builds : ∀ (items : List MenuItemConfig) {natives natives' : Natives}
    {built : List BuiltItem}, buildItems parse natives items = .ok (built, natives') →
      LeavesEmpty items → Builds natives items (fun objects f =>
        showItems objects built = some (linuxMenu (mapItems f items))) natives'
  | [], natives, natives', built, h, _ => by
      cases h
      constructor
      case objects => exact (List.append_nil _).symm
      case handles =>
        intro entry
        exact ⟨.inl, fun hany => hany.resolve_right fun ⟨_, _, hitem, _⟩ => nomatch hitem⟩
      case shown => exact fun _ _ _ _ => rfl
  | item :: rest, natives, natives', built, h, hleaves => by
      rw [buildItems] at h
      split at h
      · cases h
      · rename_i first middle hfirst
        split at h
        · cases h
        · rename_i others last hrest
          cases h
          obtain ⟨hsingle, hleaves⟩ := hleaves.split
          have hhead := build_item_builds item hfirst hsingle
          have htail := build_items_builds rest hrest hleaves
          have hlength : middle.objects.length =
              natives.objects.length + (solidItems [item]).length := by
            rw [hhead.objects, List.length_append, List.length_map]
          constructor
          case objects =>
            rw [htail.objects, hhead.objects, solid_items_cons item rest, List.map_append,
              List.append_assoc]
          case handles =>
            intro entry
            rw [htail.handles, hhead.handles, solid_items_cons item rest, handled_append, hlength,
              or_assoc]
          case shown =>
            intro objects f hf hholding
            rw [solid_items_cons item rest] at hholding
            obtain ⟨hholding, hholding'⟩ := holding_append hholding
            rw [← hlength] at hholding'
            rw [showItems, hhead.shown objects f hf hholding, htail.shown objects f hf hholding',
              mapItems, linuxMenu]

end

/-! ## Updates -/

/-- What validation says of the items of a menu. -/
structure InOrder (items : List MenuItemConfig) : Prop where
  distinct : DistinctIds items
  leaves : LeavesEmpty items
  blank : ∀ item ∈ allItems items, item.kind = .separator → item.id = ""
  solid : ((solidItems items).map (·.id)).Nodup

theorem accepted_in_order {menu : MenuConfig} {ids : List String} {count : Nat}
    {ledger : List String × Nat} (h : menu.validate ids count = .ok ledger) :
    InOrder menu.items := by
  have hdistinct := accepted_menu_distinct h
  simp only [MenuConfig.validate, bind, Except.bind] at h
  split at h
  · cases h
  · split at h
    · cases h
    · split at h
      · cases h
      · rw [validate_items_fold] at h
        obtain ⟨hgood, hnodup, -, -⟩ := (fold_ledger validate_enters _ _ _).mp h
        have hshaped : ∀ item ∈ allItems menu.items, (MenuItem.ofConfig item).Shaped := by
          intro item hitem
          obtain ⟨entry, hentry, rfl⟩ := List.mem_map.mp hitem
          exact (hgood entry hentry).2.1
        constructor
        case distinct => exact hdistinct
        case leaves =>
          intro item hitem hkind
          have hshape := hshaped item hitem
          obtain ⟨kind, id, label, enabled, checked, accelerator, items⟩ := item
          rw [MenuItem.ofConfig, MenuItem.Shaped] at hshape
          cases kind with
          | separator => exact items_of_configs_empty.mp hshape.2.2.2.2
          | command => exact items_of_configs_empty.mp hshape.2
          | checkbox => exact items_of_configs_empty.mp hshape
          | submenu => exact absurd rfl hkind
        case blank =>
          intro item hitem hkind
          have hshape := hshaped item hitem
          obtain ⟨kind, id, label, enabled, checked, accelerator, items⟩ := item
          obtain rfl : kind = .separator := hkind
          rw [MenuItem.ofConfig, MenuItem.Shaped] at hshape
          exact os_string_empty.mp hshape.1
        case solid =>
          have hkeys : ∀ items : List MenuItemConfig,
              (items.filter fun item => item.kind ≠ .separator).map (·.id) =
                items.filterMap configKey := by
            intro items
            induction items with
            | nil => rfl
            | cons item rest ih =>
                rw [List.filterMap_cons, configKey]
                by_cases hkind : item.kind = .separator
                · rw [List.filter_cons_of_neg (by simp [hkind]), if_pos hkind]
                  exact ih
                · rw [List.filter_cons_of_pos (by simp [hkind]), if_neg hkind, List.map_cons, ih]
          rw [solidItems, hkeys, allItems, List.filterMap_map]
          exact hnodup

/-- The native menu of these items after a change of each. -/
structure Mirrors (menu : NativeMenu) (items : List MenuItemConfig)
    (g : MenuItemConfig → MenuItemConfig) : Prop where
  objects : menu.natives.objects =
    (solidItems items).map fun item => .ofConfig (mapItem g item)
  handles : ∀ entry, entry ∈ menu.natives.handles ↔ Handled 0 (solidItems items) entry
  shown : ∀ objects f, KeepsKind f → Holding objects 0 f (solidItems items) →
    showItems objects menu.built = some (linuxMenu (mapItems f items))

variable {items : List MenuItemConfig} {native : NativeMenu} {g : MenuItemConfig → MenuItemConfig}

/-- A handle that is found is that of the item with the identifier. -/
theorem lookup_handle
    (hhandles : ∀ entry, entry ∈ native.natives.handles ↔ Handled 0 (solidItems items) entry)
    (id : String) :
    (∃ index item, (solidItems items)[index]? = some item ∧ item.id = id ∧
      native.natives.handles.lookup id = some ⟨item.kind, index⟩) ∨
    (∀ item ∈ solidItems items, item.id ≠ id) ∧ native.natives.handles.lookup id = none := by
  cases hlookup : native.natives.handles.lookup id with
  | some handle =>
      obtain ⟨index, item, hitem, heq⟩ := (hhandles _).mp (mem_of_lookup hlookup)
      obtain ⟨rfl, rfl⟩ := Prod.mk.inj heq
      exact .inl ⟨index, item, hitem, rfl, by rw [Nat.zero_add]⟩
  | none =>
      refine .inr ⟨fun item hitem heq => ?_, rfl⟩
      obtain ⟨index, hindex⟩ := List.getElem?_of_mem hitem
      have hmem := (hhandles (item.id, ⟨item.kind, 0 + index⟩)).mpr ⟨index, item, hindex, rfl⟩
      have hnone := List.lookup_eq_none_iff.mp hlookup _ hmem
      simp [heq] at hnone

/-- A change of items that an update may follow. -/
structure Keeps (g : MenuItemConfig → MenuItemConfig) : Prop where
  ids : KeepsIds g
  kinds : KeepsKind g

theorem native_of_mapped (f : MenuItemConfig → MenuItemConfig) (item : MenuItemConfig) :
    NativeItem.ofConfig (mapItem f item) = .ofConfig (f { item with items := [] }) := by
  obtain ⟨kind, id, label, enabled, checked, accelerator, items⟩ := item
  rw [mapItem]
  rfl

/-- An update is for an item that has been changed exactly if it is for the item. -/
theorem Keeps.fits (hg : Keeps g) (update : MenuUpdate) (item : MenuItemConfig) :
    update.fits (g { item with items := [] }) = update.fits item := by
  have hid := hg.ids { item with items := [] }
  have hkind := hg.kinds { item with items := [] }
  cases update <;> simp only [MenuUpdate.fits, hid, hkind]

theorem fits_mapped (hg : Keeps g) (update : MenuUpdate) (item : MenuItemConfig) :
    update.fits (mapItem g item) = update.fits item := by
  have hfits := hg.fits update item
  obtain ⟨kind, id, label, enabled, checked, accelerator, items⟩ := item
  rw [mapItem]
  exact (update.fits_items _ _).trans hfits

/-- An update changes the native item of the item that it is for, if there is one. -/
theorem Mirrors.apply (h : Mirrors native items g) (horder : InOrder items) (hg : Keeps g)
    (update : MenuUpdate) :
    Mirrors (native.apply update).2 items (fun item => update.only (g item)) ∧
      (native.apply update).1.isOk = (solidItems items).any update.fits := by
  -- the native items after a change of the one at `index`
  have hmodified (index : Nat) (item : MenuItemConfig)
      (hitem : (solidItems items)[index]? = some item) (hid : item.id = update.id)
      (hfits : update.fits item = true) (f : NativeItem → NativeItem)
      (hf : ∀ other, NativeItem.ofConfig (update.change other) = f (.ofConfig other)) :
      Mirrors { native with natives := native.natives.modify index f } items
        fun item => update.only (g item) := by
    refine ⟨?_, h.handles, h.shown⟩
    show native.natives.objects.modify index f = _
    rw [h.objects]
    refine List.ext_getElem? fun place => ?_
    rw [List.getElem?_modify, List.getElem?_map, List.getElem?_map]
    cases hplace : (solidItems items)[place]? with
    | none => rfl
    | some other =>
        simp only [Option.map_some, native_of_mapped]
        by_cases hsame : index = place
        · subst hsame
          obtain rfl : item = other := Option.some.inj (hitem.symm.trans hplace)
          rw [MenuUpdate.only, if_pos ((hg.fits update item).trans hfits), hf]
          simp
        · -- another item has another identifier
          have hne : update.fits other = false := by
            refine Bool.eq_false_iff.mpr fun hother => hsame ?_
            have hsolid := horder.solid
            have hindex : ((solidItems items).map (·.id))[index]? = some update.id := by
              rw [List.getElem?_map, hitem, Option.map_some, hid]
            have hplace' : ((solidItems items).map (·.id))[place]? = some update.id := by
              rw [List.getElem?_map, hplace, Option.map_some, MenuUpdate.id_of_fits hother]
            have hlt := (List.getElem?_eq_some_iff.mp hindex).1
            exact (List.getElem?_inj hlt hsolid).mp (hindex.trans hplace'.symm)
          rw [MenuUpdate.only, if_neg (by rw [hg.fits update other, hne]; exact Bool.false_ne_true)]
          simp [hsame]
  -- nothing is changed where no item fits
  have hkept (hnone : (solidItems items).any update.fits = false) :
      Mirrors native items fun item => update.only (g item) := by
    refine ⟨?_, h.handles, h.shown⟩
    rw [h.objects]
    refine List.map_congr_left fun item hitem => ?_
    have hunfit := Bool.eq_false_iff.mpr (List.any_eq_false.mp hnone item hitem)
    rw [native_of_mapped, native_of_mapped, MenuUpdate.only,
      if_neg (by rw [hg.fits update item, hunfit]; exact Bool.false_ne_true)]
  unfold NativeMenu.apply
  obtain ⟨index, item, hitem, hid, hlookup⟩ | ⟨hmissing, hlookup⟩ :=
    lookup_handle h.handles update.id
  · have hmem := List.mem_of_getElem? hitem
    cases update with
    | enabled id enabled =>
        have hfits : (MenuUpdate.enabled id enabled).fits item = true := beq_iff_eq.mpr hid
        rw [hlookup]
        refine ⟨hmodified index item hitem hid hfits _ fun other => rfl, ?_⟩
        exact (List.any_eq_true.mpr ⟨item, hmem, hfits⟩).symm
    | checked id checked =>
        rw [hlookup]
        dsimp only
        by_cases hkind : item.kind = .checkbox
        · have hfits : (MenuUpdate.checked id checked).fits item = true :=
            Bool.and_eq_true_iff.mpr ⟨beq_iff_eq.mpr hid, beq_iff_eq.mpr hkind⟩
          rw [if_pos hkind]
          refine ⟨hmodified index item hitem hid hfits _ fun other => rfl, ?_⟩
          exact (List.any_eq_true.mpr ⟨item, hmem, hfits⟩).symm
        · have hnone : (solidItems items).any (MenuUpdate.checked id checked).fits = false := by
            refine List.any_eq_false.mpr fun other hother hfits => hkind ?_
            obtain ⟨hother', hcheckbox⟩ := Bool.and_eq_true_iff.mp hfits
            have hsame : other = item := List.inj_on_of_nodup_map horder.solid hother hmem
              ((beq_iff_eq.mp hother').trans hid.symm)
            exact hsame ▸ beq_iff_eq.mp hcheckbox
          rw [if_neg hkind]
          exact ⟨hkept hnone, hnone.symm⟩
  · have hnone : (solidItems items).any update.fits = false :=
      List.any_eq_false.mpr fun item hitem hfits =>
        hmissing item hitem (MenuUpdate.id_of_fits hfits)
    rw [hlookup]
    exact ⟨hkept hnone, hnone.symm⟩

theorem settled_keeps (updates : List MenuUpdate) : Keeps (settled updates) :=
  ⟨fun _ => rfl, fun _ => rfl⟩

theorem Mirrors.afterUpdates (h : Mirrors native items id) (horder : InOrder items)
    (updates : List MenuUpdate) :
    Mirrors (native.afterUpdates updates) items (settled updates) := by
  induction updates using List.reverseRecOn with
  | nil =>
      have hself : settled [] = id := funext fun item => by
        cases item
        rfl
      exact hself ▸ h
  | append_singleton updates update ih =>
      have hstep : native.afterUpdates (updates ++ [update]) =
          ((native.afterUpdates updates).apply update).2 := by
        simp only [NativeMenu.afterUpdates, List.foldl_append, List.foldl_cons, List.foldl_nil]
      have hsettled : settled (updates ++ [update]) =
          fun item => update.only (settled updates item) :=
        funext fun item => settled_append updates update item
      rw [hstep, hsettled]
      exact (ih.apply horder (settled_keeps updates) update).1

/-- Of a menu that the host has accepted, the native menu of macOS and Windows shows after any
updates what the tray of Linux shows after them, and both refuse the same updates. -/
theorem menus_agree {menu : MenuConfig} {ids : List String} {count : Nat}
    {ledger : List String × Nat} {native : NativeMenu}
    (hvalid : menu.validate ids count = .ok ledger) (hbuilt : buildMenu parse menu = .ok native)
    (updates : List MenuUpdate) (hids : ∀ update ∈ updates, update.id ≠ "") :
    (native.afterUpdates updates).shown = some (linuxMenu (afterUpdates updates menu.items)) ∧
      ∀ update : MenuUpdate, update.id ≠ "" →
        ((native.afterUpdates updates).apply update).1.isOk =
          (update.apply (afterUpdates updates menu.items)).1.isOk := by
  have horder := accepted_in_order hvalid
  have hmirrors : Mirrors native menu.items id := by
    unfold buildMenu at hbuilt
    split at hbuilt
    · cases hbuilt
    · rename_i built natives hitems
      cases hbuilt
      have hbuilds := build_items_builds menu.items hitems horder.leaves
      refine ⟨?_, fun entry => (hbuilds.handles entry).trans (by simp), hbuilds.shown⟩
      rw [hbuilds.objects]
      refine List.map_congr_left fun item _ => ?_
      rw [native_of_mapped]
      rfl
  have hafter := hmirrors.afterUpdates horder updates
  rw [after_updates_eq horder.distinct updates hids]
  constructor
  · refine hafter.shown _ _ (settled_keeps updates).kinds ?_
    rw [Holding, List.drop_zero, hafter.objects]
  · intro update hid
    have hdistinct : DistinctIds (mapItems (settled updates) menu.items) :=
      horder.distinct.map (settled_keeps updates).ids
    have hany : (allItems (mapItems (settled updates) menu.items)).any update.fits =
        (solidItems menu.items).any update.fits := by
      rw [all_items_map, List.any_map, Bool.eq_iff_iff, List.any_eq_true, List.any_eq_true]
      refine exists_congr fun item => ?_
      rw [Function.comp_apply, fits_mapped (settled_keeps updates), solidItems, List.mem_filter]
      constructor
      · rintro ⟨hitem, hfits⟩
        refine ⟨⟨hitem, decide_eq_true fun hkind => hid ?_⟩, hfits⟩
        rw [← MenuUpdate.id_of_fits hfits, horder.blank item hitem hkind]
      · rintro ⟨⟨hitem, -⟩, hfits⟩
        exact ⟨hitem, hfits⟩
    rw [(hafter.apply horder (settled_keeps updates) update).2, apply_eq update hid hdistinct, hany]
    cases (solidItems menu.items).any update.fits <;> rfl

/-- The sidebar is marked on every platform, and a command cannot be. -/
theorem sidebar_marked_everywhere : ∃ native, buildMenu (fun _ => .ok ()) viewMenu = .ok native ∧
    (native.afterUpdates [.checked "sidebar" true]).shown =
      some (linuxMenu (afterUpdates [.checked "sidebar" true] viewMenu.items)) ∧
    (native.apply (.checked "reload" true)).1.isOk =
      (MenuUpdate.apply (.checked "reload" true) viewMenu.items).1.isOk := by
  have hvalid : viewMenu.validate [] 0 = .ok (["sidebar", "panels", "reload"], 4) := by
    decide +kernel
  refine ⟨_, rfl, ?_, ?_⟩
  · refine (@menus_agree (fun _ => .ok ()) _ _ _ _ _ hvalid rfl _ ?_).1
    simp [MenuUpdate.id]
  · refine (@menus_agree (fun _ => .ok ()) _ _ _ _ _ hvalid rfl [] (by simp)).2
      (.checked "reload" true) ?_
    simp [MenuUpdate.id]

end PamDesktop.Shell
