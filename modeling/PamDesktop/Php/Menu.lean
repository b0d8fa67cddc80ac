import PamDesktop.Foundations.Ledger
import PamDesktop.Php.Accelerator
import PamDesktop.Php.Application

/-!
# Menus in PHP

`MenuItem`, `Menu`, `Tray` and `Shell` check a menu while it is built and again when it becomes an
array. Each of their walks is a loop over the items in one order, and `built_iff` says what PHP
builds.
-/

namespace PamDesktop.Php

open Foundations Protocol

/-! ## Items -/

/-- `MenuItem`. -/
structure MenuItem where
  kind : MenuItemKind
  id : List UInt8
  label : List UInt8
  enabled : Bool
  checked : Bool
  accelerator : Option (List UInt8)
  items : List MenuItem

/-- `MenuItem::__construct`. -/
def MenuItem.check (item : MenuItem) : Except (List UInt8) Unit :=
  if item.kind = .separator then
    if item.id ≠ [] ∨ item.label ≠ [] ∨ item.checked = true ∨ item.accelerator.isSome = true ∨
        item.items.isEmpty = false then
      .error (osString "Menu separators cannot define identity, text, state, or children.")
    else .ok ()
  else do
    assertIdentifier item.id "The menu item identifier"
    assertLabel item.label 80 "Menu item labels must contain at most 80 bytes of printable text."
    match item.accelerator with
    | some accelerator => Accelerator.assert accelerator
    | none => .ok ()
    if item.kind = .submenu ∧ item.items.isEmpty = true then
      .error (osString "Submenus must contain at least one child item.")
    else if item.kind ≠ .submenu ∧ item.items.isEmpty = false then
      .error (osString "Only submenus can contain child items.")
    else if item.kind ≠ .checkbox ∧ item.checked = true then
      .error (osString "Only checkbox menu items can be checked.")
    else if item.kind = .submenu ∧ item.accelerator.isSome = true then
      .error (osString "Submenus cannot define accelerators.")
    else .ok ()

mutual

/-- An item is constructed after its children, which are its arguments. -/
def MenuItem.construct : MenuItem → Except (List UInt8) Unit
  | ⟨kind, id, label, enabled, checked, accelerator, items⟩ => do
      constructItems items
      MenuItem.check ⟨kind, id, label, enabled, checked, accelerator, items⟩
termination_by structural item => item

/-- Arguments are constructed in their order. -/
def constructItems : List MenuItem → Except (List UInt8) Unit
  | [] => .ok ()
  | item :: rest => do
      item.construct
      constructItems rest
termination_by structural items => items

end

mutual

/-- `MenuItem::toArray`. -/
def MenuItem.toArray : MenuItem → PhpValue
  | ⟨kind, id, label, enabled, checked, accelerator, items⟩ =>
      Serving.named [("kind", .int (kind.ctorIdx + 1)), ("id", .string id),
        ("label", .string label), ("enabled", .bool enabled), ("checked", .bool checked),
        ("accelerator", accelerator.elim .null PhpValue.string),
        ("items", Serving.phpList (itemArrays items))]
termination_by structural item => item

/-- The items of a menu as arrays. -/
def itemArrays : List MenuItem → List PhpValue
  | [] => []
  | item :: rest => item.toArray :: itemArrays rest
termination_by structural items => items

end

/-! ## Menus -/

/-- `Menu`. -/
structure Menu where
  id : List UInt8
  label : List UInt8
  items : List MenuItem

mutual

/-- The body of the loop of `$walk`, with `$ids` and `$count`. -/
def walkItem (depth : Nat) (ids : List (List UInt8)) (count : Nat) :
    MenuItem → Except (List UInt8) (List (List UInt8) × Nat)
  | ⟨kind, id, _, _, _, _, items⟩ =>
      if kind ≠ .separator ∧ ids.contains id = true then
        .error (osString "The menu item " ++ id ++ osString " is duplicated.")
      else
        let ids := if kind = .separator then ids else id :: ids
        -- the depth is checked where `$walk` begins, also for an item without children
        if 8 < depth + 1 then
          .error (osString "Native menu nesting cannot exceed eight levels.")
        else walkItems (depth + 1) ids (count + 1) items
termination_by structural item => item

/-- The loop of `$walk`. -/
def walkItems (depth : Nat) (ids : List (List UInt8)) (count : Nat) :
    List MenuItem → Except (List UInt8) (List (List UInt8) × Nat)
  | [] => .ok (ids, count)
  | item :: rest => do
      let (ids, count) ← walkItem depth ids count item
      walkItems depth ids count rest
termination_by structural items => items

end

/-- `Menu::assertUniqueItems`. -/
def assertUniqueItems (items : List MenuItem) : Except (List UInt8) Unit := do
  let (_, count) ← walkItems 1 [] 0 items
  if 256 < count then
    .error (osString "Native menus cannot contain more than 256 items.")

/-- `Menu::__construct`. -/
def Menu.check (menu : Menu) : Except (List UInt8) Unit := do
  assertIdentifier menu.id "The menu identifier"
  assertLabel menu.label 80 "Menu labels must contain at most 80 bytes of printable text."
  assertUniqueItems menu.items

/-- `Menu::create`, after its items. -/
def Menu.construct (menu : Menu) : Except (List UInt8) Unit := do
  constructItems menu.items
  menu.check

/-- `Menu::toArray`. -/
def Menu.toArray (menu : Menu) : Except (List UInt8) PhpValue :=
  if menu.items.isEmpty = true then
    .error (osString "The menu " ++ menu.id ++ osString " must contain at least one item.")
  else
    .ok (Serving.named [("id", .string menu.id), ("label", .string menu.label),
      ("items", Serving.phpList (itemArrays menu.items))])

/-- `Tray`. -/
structure Tray where
  menuId : List UInt8
  tooltip : List UInt8
  closeBehavior : TrayCloseBehavior

/-- `Tray::__construct`. -/
def Tray.check (tray : Tray) : Except (List UInt8) Unit := do
  assertIdentifier tray.menuId "The tray menu identifier"
  assertLabel tray.tooltip 128
    "The tray tooltip must contain at most 128 bytes of printable text."

/-- `Tray::toArray`. -/
def Tray.toArray (tray : Tray) : PhpValue :=
  Serving.named [("menuId", .string tray.menuId), ("tooltip", .string tray.tooltip),
    ("closeBehavior", .int (tray.closeBehavior.ctorIdx + 1))]

/-! ## Shells -/

/-- `Shell`, without shortcuts and quick actions. -/
structure Shell where
  menus : List Menu
  tray : Option Tray

mutual

/-- The body of the loop of `Shell::collectItemIds`. -/
def collectItemId (ids : List (List UInt8)) :
    MenuItem → Except (List UInt8) (List (List UInt8))
  | ⟨kind, id, _, _, _, _, items⟩ =>
      if kind ≠ .separator ∧ ids.contains id = true then
        .error (osString "Menu item " ++ id ++
          osString " is already registered in another menu.")
      else collectItemIds (if kind = .separator then ids else id :: ids) items
termination_by structural item => item

/-- `Shell::collectItemIds`. -/
def collectItemIds (ids : List (List UInt8)) :
    List MenuItem → Except (List UInt8) (List (List UInt8))
  | [] => .ok ids
  | item :: rest => do
      let ids ← collectItemId ids item
      collectItemIds ids rest
termination_by structural items => items

end

/-- The loop over the menus of a shell: their identifiers. -/
def collectMenus (menuIds itemIds : List (List UInt8)) :
    List Menu → Except (List UInt8) (List (List UInt8))
  | [] => .ok menuIds
  | menu :: rest =>
      if menuIds.contains menu.id then
        .error (osString "Menu " ++ menu.id ++ osString " is already registered.")
      else do
        let itemIds ← collectItemIds itemIds menu.items
        collectMenus (menu.id :: menuIds) itemIds rest

/-- `Shell::__construct`. -/
def Shell.check (shell : Shell) : Except (List UInt8) Unit := do
  let menuIds ← collectMenus [] [] shell.menus
  match shell.tray with
  | some tray =>
      if menuIds.contains tray.menuId then .ok ()
      else .error (osString "Tray menu " ++ tray.menuId ++ osString " is not registered.")
  | none => .ok ()

/-- `Shell::none()->menu(…)->tray(…)`: a shell with the menus and then with the tray. -/
def Shell.construct (shell : Shell) : Except (List UInt8) Unit := do
  shell.menus.forM Menu.construct
  Shell.check ⟨shell.menus, none⟩
  match shell.tray with
  | some tray =>
      tray.check
      shell.check
  | none => .ok ()

/-- `Shell::toArray`. -/
def Shell.toArray (shell : Shell) : Except (List UInt8) PhpValue :=
  if 1 < shell.menus.length then
    .error (osString "The stable Linux shell accepts one tray menu per application.")
  else if shell.menus.isEmpty = false ∧ shell.tray.isNone = true then
    .error (osString "Native menus require a tray configuration on Linux.")
  else do
    let menus ← shell.menus.mapM Menu.toArray
    .ok (Serving.named [("menus", Serving.phpList menus),
      ("tray", shell.tray.elim .null Tray.toArray), ("shortcuts", Serving.phpList []),
      ("quickActions", Serving.phpList [])])

/-- PHP builds the shell and makes an array of it. -/
def Shell.Constructed (shell : Shell) : Prop :=
  shell.construct = .ok () ∧ ∃ form, shell.toArray = .ok form

/-! ## The order of the items -/

mutual

/-- The items of a tree with their levels, in the order in which they are visited. -/
def MenuItem.entries (depth : Nat) : MenuItem → List (Nat × MenuItem)
  | ⟨kind, id, label, enabled, checked, accelerator, items⟩ =>
      (depth, ⟨kind, id, label, enabled, checked, accelerator, items⟩) ::
        itemEntries (depth + 1) items
termination_by structural item => item

/-- The items of a list of trees. -/
def itemEntries (depth : Nat) : List MenuItem → List (Nat × MenuItem)
  | [] => []
  | item :: rest => item.entries depth ++ itemEntries depth rest
termination_by structural items => items

end

/-- The identifier of an item, where it has one. -/
def MenuItem.key (item : MenuItem) : Option (List UInt8) :=
  if item.kind = .separator then none else some item.id

mutual

theorem construct_iff : ∀ (item : MenuItem) (depth : Nat), item.construct = .ok () ↔
    ∀ entry ∈ item.entries depth, entry.2.check = .ok ()
  | ⟨kind, id, label, enabled, checked, accelerator, items⟩, depth => by
      rw [MenuItem.construct, MenuItem.entries, List.forall_mem_cons,
        ← construct_items_iff items (depth + 1), and_comm, except_bind_ok]
      constructor
      · intro h
        obtain ⟨⟨⟩, hitems, hcheck⟩ := h
        exact ⟨hitems, hcheck⟩
      · exact fun h => ⟨(), h⟩

/-- Items are constructed exactly if each of them passes its own check. -/
theorem construct_items_iff : ∀ (items : List MenuItem) (depth : Nat),
    constructItems items = .ok () ↔ ∀ entry ∈ itemEntries depth items, entry.2.check = .ok ()
  | [], depth => iff_of_true rfl nofun
  | item :: rest, depth => by
      rw [constructItems, itemEntries, List.forall_mem_append, ← construct_iff item depth,
        ← construct_items_iff rest depth, except_bind_ok]
      constructor
      · intro h
        obtain ⟨⟨⟩, hitem, hrest⟩ := h
        exact ⟨hitem, hrest⟩
      · exact fun h => ⟨(), h⟩

end

/-- A turn of the loop of `$walk` without the children. -/
def walkStep (ledger : List (List UInt8) × Nat) (entry : Nat × MenuItem) :
    Except (List UInt8) (List (List UInt8) × Nat) :=
  if entry.2.kind ≠ .separator ∧ ledger.1.contains entry.2.id = true then
    .error (osString "The menu item " ++ entry.2.id ++ osString " is duplicated.")
  else if 8 < entry.1 + 1 then
    .error (osString "Native menu nesting cannot exceed eight levels.")
  else .ok (entry.2.key.toList ++ ledger.1, ledger.2 + 1)

mutual

theorem walk_item_fold : ∀ (item : MenuItem) (depth : Nat) (ids : List (List UInt8))
    (count : Nat), walkItem depth ids count item =
      (item.entries depth).foldlM walkStep (ids, count)
  | ⟨kind, id, label, enabled, checked, accelerator, items⟩, depth, ids, count => by
      rw [walkItem, MenuItem.entries, List.foldlM_cons, walkStep]
      dsimp only
      by_cases hduplicate : kind ≠ .separator ∧ ids.contains id = true
      · rw [if_pos hduplicate, if_pos hduplicate]
        rfl
      · rw [if_neg hduplicate, if_neg hduplicate]
        by_cases hdeep : 8 < depth + 1
        · rw [if_pos hdeep, if_pos hdeep]
          rfl
        · rw [if_neg hdeep, if_neg hdeep, walk_items_fold items]
          show _ = List.foldlM walkStep (_, _) _
          unfold MenuItem.key
          by_cases hkind : kind = .separator
          · rw [if_pos hkind, if_pos hkind]
            rfl
          · rw [if_neg hkind, if_neg hkind]
            rfl

/-- `$walk` is a loop over the items in their order. -/
theorem walk_items_fold : ∀ (items : List MenuItem) (depth : Nat) (ids : List (List UInt8))
    (count : Nat), walkItems depth ids count items =
      (itemEntries depth items).foldlM walkStep (ids, count)
  | [], depth, ids, count => rfl
  | item :: rest, depth, ids, count => by
      rw [walkItems, itemEntries, List.foldlM_append, walk_item_fold item]
      refine congrArg _ (funext fun ledger => ?_)
      exact walk_items_fold rest depth ledger.1 ledger.2

end

/-- A turn of `collectItemIds` without the children. -/
def collectStep (ids : List (List UInt8)) (entry : Nat × MenuItem) :
    Except (List UInt8) (List (List UInt8)) :=
  if entry.2.kind ≠ .separator ∧ ids.contains entry.2.id = true then
    .error (osString "Menu item " ++ entry.2.id ++
      osString " is already registered in another menu.")
  else .ok (entry.2.key.toList ++ ids)

mutual

theorem collect_item_fold : ∀ (item : MenuItem) (depth : Nat) (ids : List (List UInt8)),
    collectItemId ids item = (item.entries depth).foldlM collectStep ids
  | ⟨kind, id, label, enabled, checked, accelerator, items⟩, depth, ids => by
      rw [collectItemId, MenuItem.entries, List.foldlM_cons, collectStep]
      dsimp only
      by_cases hduplicate : kind ≠ .separator ∧ ids.contains id = true
      · rw [if_pos hduplicate, if_pos hduplicate]
        rfl
      · rw [if_neg hduplicate, if_neg hduplicate, collect_items_fold items (depth + 1)]
        show _ = List.foldlM collectStep _ _
        unfold MenuItem.key
        by_cases hkind : kind = .separator
        · rw [if_pos hkind, if_pos hkind]
          rfl
        · rw [if_neg hkind, if_neg hkind]
          rfl

/-- `collectItemIds` is one too. -/
theorem collect_items_fold : ∀ (items : List MenuItem) (depth : Nat) (ids : List (List UInt8)),
    collectItemIds ids items = (itemEntries depth items).foldlM collectStep ids
  | [], depth, ids => rfl
  | item :: rest, depth, ids => by
      rw [collectItemIds, itemEntries, List.foldlM_append, collect_item_fold item depth]
      exact congrArg _ (funext fun ids => collect_items_fold rest depth ids)

end

/-! ## What PHP checks -/

/-- What a ledger becomes. -/
def enterItem (ledger : List (List UInt8) × Nat) (entry : Nat × MenuItem) :
    List (List UInt8) × Nat :=
  (entry.2.key.toList ++ ledger.1, ledger.2 + 1)

theorem key_fresh_iff (item : MenuItem) (ids : List (List UInt8)) :
    (∀ id, item.key = some id → id ∉ ids) ↔
      ¬ (item.kind ≠ .separator ∧ ids.contains item.id = true) := by
  unfold MenuItem.key
  by_cases hkind : item.kind = .separator
  · rw [if_pos hkind]
    exact iff_of_true nofun fun h => h.1 hkind
  · rw [if_neg hkind, List.contains_iff_mem]
    constructor
    · exact fun h hmem => h item.id rfl hmem.2
    · exact fun h id hid hmem => h ⟨hkind, Option.some.inj hid ▸ hmem⟩

theorem walk_enters : Enters walkStep (fun entry => entry.1 ≤ 7) (fun entry => entry.2.key)
    Prod.fst enterItem where
  keys_enter := fun _ _ => rfl
  step_ok := by
    intro ledger entry ledger'
    rw [key_fresh_iff, walkStep]
    by_cases hduplicate : entry.2.kind ≠ .separator ∧ ledger.1.contains entry.2.id = true
    · rw [if_pos hduplicate]
      exact iff_of_false nofun fun h => h.2.1 hduplicate
    · rw [if_neg hduplicate]
      by_cases hdeep : 8 < entry.1 + 1
      · rw [if_pos hdeep]
        exact iff_of_false nofun fun h => by omega
      · rw [if_neg hdeep, Except.ok.injEq]
        constructor
        · exact fun h => ⟨by omega, hduplicate, h.symm⟩
        · exact fun h => h.2.2.symm

theorem collect_enters : Enters collectStep (fun _ => True) (fun entry => entry.2.key) id
    fun ids entry => entry.2.key.toList ++ ids where
  keys_enter := fun _ _ => rfl
  step_ok := by
    intro ids entry ids'
    rw [key_fresh_iff, collectStep]
    by_cases hduplicate : entry.2.kind ≠ .separator ∧ ids.contains entry.2.id = true
    · rw [if_pos hduplicate]
      exact iff_of_false nofun fun h => h.2.1 hduplicate
    · rw [if_neg hduplicate, Except.ok.injEq]
      constructor
      · exact fun h => ⟨trivial, hduplicate, h.symm⟩
      · exact fun h => h.2.2.symm

theorem entered_count (entries : List (Nat × MenuItem)) (ledger : List (List UInt8) × Nat) :
    (entries.foldl enterItem ledger).2 = ledger.2 + entries.length := by
  induction entries generalizing ledger with
  | nil => rfl
  | cons entry rest ih =>
      rw [List.foldl_cons, ih, List.length_cons, enterItem]
      omega

/-- The identifiers of a list of items and of what is below them. -/
def itemIds (items : List MenuItem) : List (List UInt8) :=
  (itemEntries 1 items).filterMap fun entry => entry.2.key

/-- `assertUniqueItems` accepts seven levels, different identifiers and 256 items. -/
theorem assert_unique_iff (items : List MenuItem) : assertUniqueItems items = .ok () ↔
    (∀ entry ∈ itemEntries 1 items, entry.1 ≤ 7) ∧ (itemIds items).Nodup ∧
      (itemEntries 1 items).length ≤ 256 := by
  have hwalk := fold_ledger walk_enters (itemEntries 1 items) ([], 0)
  rw [← walk_items_fold] at hwalk
  have hcount := entered_count (itemEntries 1 items) ([], 0)
  unfold assertUniqueItems
  rw [except_bind_ok]
  constructor
  · intro h
    obtain ⟨ledger, hledger, hsmall⟩ := h
    obtain ⟨hlevels, hnodup, -, rfl⟩ := (hwalk ledger).mp hledger
    dsimp only at hsmall
    split at hsmall
    · cases hsmall
    · exact ⟨hlevels, hnodup, by omega⟩
  · intro h
    obtain ⟨hlevels, hnodup, hsmall⟩ := h
    refine ⟨_, (hwalk _).mpr ⟨hlevels, hnodup, fun _ _ => List.not_mem_nil, rfl⟩, ?_⟩
    dsimp only
    rw [if_neg (by omega)]
    rfl

theorem collect_ids_ok {items : List MenuItem} (h : (itemIds items).Nodup) :
    ∃ ids, collectItemIds [] items = .ok ids := by
  rw [collect_items_fold items 1]
  exact ⟨_, (fold_ledger collect_enters _ _ _).mpr
    ⟨fun _ _ => trivial, h, fun _ _ => List.not_mem_nil, rfl⟩⟩

/-- PHP builds a shell exactly if it is empty, or if it has one menu with items and the tray for
it, which pass their checks. -/
theorem constructed_iff (shell : Shell) : shell.Constructed ↔ shell = ⟨[], none⟩ ∨
    ∃ menu tray, shell = ⟨[menu], some tray⟩ ∧ menu.construct = .ok () ∧
      tray.check = .ok () ∧ tray.menuId = menu.id ∧ menu.items ≠ [] := by
  have hcollect : ∀ menu : Menu, menu.construct = .ok () →
      collectMenus [] [] [menu] = .ok [menu.id] := by
    intro menu hmenu
    obtain ⟨⟨⟩, -, hcheck⟩ := except_bind_ok.mp hmenu
    obtain ⟨⟨⟩, -, hcheck⟩ := except_bind_ok.mp hcheck
    obtain ⟨⟨⟩, -, hunique⟩ := except_bind_ok.mp hcheck
    obtain ⟨ids, hids⟩ := collect_ids_ok ((assert_unique_iff menu.items).mp hunique).2.1
    rw [collectMenus, if_neg (by simp), hids]
    rfl
  constructor
  · intro h
    obtain ⟨hconstruct, form, hform⟩ := h
    obtain ⟨menus, tray⟩ := shell
    obtain ⟨⟨⟩, hmenus, hconstruct⟩ := except_bind_ok.mp hconstruct
    obtain ⟨⟨⟩, -, hconstruct⟩ := except_bind_ok.mp hconstruct
    unfold Shell.toArray at hform
    dsimp only at hconstruct hform hmenus
    match menus, tray with
    | [], none => exact .inl rfl
    | [], some tray =>
        obtain ⟨⟨⟩, -, hcheck⟩ := except_bind_ok.mp hconstruct
        cases hcheck
    | menu :: [], none => cases hform
    | menu :: [], some tray =>
        have hmenu : menu.construct = .ok () := by
          obtain ⟨⟨⟩, hmenu, -⟩ := except_bind_ok.mp hmenus
          exact hmenu
        obtain ⟨⟨⟩, htray, hcheck⟩ := except_bind_ok.mp hconstruct
        refine .inr ⟨menu, tray, rfl, hmenu, htray, ?_, ?_⟩
        · unfold Shell.check at hcheck
          rw [hcollect menu hmenu] at hcheck
          obtain ⟨ids, hids, hcheck⟩ := except_bind_ok.mp hcheck
          cases hids
          dsimp only at hcheck
          split at hcheck
          · rename_i hmem
            exact List.mem_singleton.mp (List.contains_iff_mem.mp hmem)
          · cases hcheck
        · intro hitems
          rw [if_neg (by simp), if_neg (by simp)] at hform
          obtain ⟨arrays, harrays, -⟩ := except_bind_ok.mp hform
          rw [List.mapM_cons, Menu.toArray, hitems] at harrays
          cases harrays
    | menu :: other :: rest, tray =>
        rw [if_pos (by simp)] at hform
        cases hform
  · intro h
    obtain rfl | ⟨menu, tray, rfl, hmenu, htray, hid, hitems⟩ := h
    · exact ⟨rfl, _, rfl⟩
    · have hbare : Shell.check ⟨[menu], none⟩ = .ok () := by
        unfold Shell.check
        rw [hcollect menu hmenu]
        rfl
      have hcheck : Shell.check ⟨[menu], some tray⟩ = .ok () := by
        unfold Shell.check
        rw [hcollect menu hmenu]
        show (if [menu.id].contains tray.menuId then Except.ok () else _) = _
        rw [if_pos (by simp [hid])]
      have hmenus : [menu].forM Menu.construct = .ok () := except_bind_ok.mpr ⟨(), hmenu, rfl⟩
      refine ⟨?_, ?_⟩
      · exact except_bind_ok.mpr ⟨(), hmenus, except_bind_ok.mpr ⟨(), hbare,
          except_bind_ok.mpr ⟨(), htray, hcheck⟩⟩⟩
      · unfold Shell.toArray
        rw [if_neg (by simp), if_neg (by simp), List.mapM_cons, Menu.toArray,
          if_neg (by simpa using hitems)]
        exact ⟨_, rfl⟩

/-! ## Items by themselves -/

/-- What an item may have, by its kind. -/
def MenuItem.Shaped (item : MenuItem) : Prop :=
  match item.kind with
  | .separator => item.id = [] ∧ item.label = [] ∧ item.checked = false ∧
      item.accelerator = none ∧ item.items = []
  | .command => item.checked = false ∧ item.items = []
  | .checkbox => item.items = []
  | .submenu => item.checked = false ∧ item.accelerator = none ∧ item.items ≠ []

theorem check_iff (item : MenuItem) : item.check = .ok () ↔ item.Shaped ∧
    (item.kind ≠ .separator → assertIdentifier item.id "The menu item identifier" = .ok () ∧
      (trim item.label ≠ [] ∧ item.label.length ≤ 80) ∧
      ∀ accelerator ∈ item.accelerator, Accelerator.assert accelerator = .ok ()) := by
  obtain ⟨kind, id, label, enabled, checked, accelerator, items⟩ := item
  unfold MenuItem.check MenuItem.Shaped
  dsimp only
  by_cases hkind : kind = .separator
  · subst hkind
    rw [if_pos rfl]
    split
    · rename_i h
      refine iff_of_false nofun fun hok => ?_
      obtain ⟨⟨rfl, rfl, rfl, rfl, rfl⟩, -⟩ := hok
      simp at h
    · rename_i h
      simp only [not_or, Decidable.not_not] at h
      simp_all
  · rw [if_neg hkind, except_bind_ok]
    have hlabel := assert_label_iff label 80
      "Menu item labels must contain at most 80 bytes of printable text."
    constructor
    · intro h
      obtain ⟨⟨⟩, hid, h⟩ := h
      obtain ⟨⟨⟩, htext, h⟩ := except_bind_ok.mp h
      rw [hlabel] at htext
      cases accelerator with
      | none =>
          cases kind <;> cases items <;> cases checked <;> simp_all [bind, Except.bind]
      | some accelerator =>
          obtain ⟨⟨⟩, hkey, h⟩ := except_bind_ok.mp h
          cases kind <;> cases items <;> cases checked <;> simp_all
    · intro h
      obtain ⟨hshape, h⟩ := h
      obtain ⟨hid, htext, hkeys⟩ := h hkind
      refine ⟨(), hid, except_bind_ok.mpr ⟨(), hlabel.mpr htext, ?_⟩⟩
      cases accelerator with
      | none =>
          cases kind <;> cases items <;> cases checked <;> simp_all [bind, Except.bind]
      | some accelerator =>
          refine except_bind_ok.mpr ⟨(), hkeys accelerator rfl, ?_⟩
          cases kind <;> cases items <;> cases checked <;> simp_all

/-! ## Menus in order -/

/-- The identifiers of a menu. -/
def Menu.names (menu : Menu) : List (List UInt8) := menu.id :: itemIds menu.items

/-- The texts of a menu and its tray, each with the bytes that it may have. -/
def Menu.labels (menu : Menu) (tray : Tray) : List (List UInt8 × Nat) :=
  (menu.label, 80) :: (tray.tooltip, 128) ::
    ((itemEntries 1 menu.items).filter fun entry => decide (entry.2.kind ≠ .separator)).map
      fun entry => (entry.2.label, 80)

/-- Everything that PHP and the host both ask of a menu and its tray. -/
structure InOrder (menu : Menu) (tray : Tray) : Prop where
  registered : tray.menuId = menu.id
  nonempty : menu.items ≠ []
  count : (itemEntries 1 menu.items).length ≤ 256
  ids : (itemIds menu.items).Nodup
  shaped : ∀ entry ∈ itemEntries 1 menu.items, entry.2.Shaped
  accelerators : ∀ entry ∈ itemEntries 1 menu.items, ∀ accelerator ∈ entry.2.accelerator,
    Accelerator.assert accelerator = .ok ()
  names : ∀ name ∈ menu.names, ∃ identifier, IdentifierBytes identifier ∧
    (name = identifier ∨ name = identifier ++ [10])
  labels : ∀ label ∈ menu.labels tray, trim label.1 ≠ [] ∧ label.1.length ≤ label.2

/-- No item is below this level. -/
def Menu.Levels (menu : Menu) (levels : Nat) : Prop :=
  ∀ entry ∈ itemEntries 1 menu.items, entry.1 ≤ levels

/-- The items that have identifiers and labels. -/
theorem item_ids_mem {items : List MenuItem} {id : List UInt8} : id ∈ itemIds items ↔
    ∃ entry ∈ itemEntries 1 items, entry.2.kind ≠ .separator ∧ entry.2.id = id := by
  rw [itemIds, List.mem_filterMap]
  refine exists_congr fun entry => and_congr_right fun _ => ?_
  unfold MenuItem.key
  by_cases hkind : entry.2.kind = .separator
  · rw [if_pos hkind]
    exact iff_of_false nofun fun h => h.1 hkind
  · rw [if_neg hkind, Option.some_inj]
    exact ⟨fun h => ⟨hkind, h⟩, fun h => h.2⟩

theorem forall_names {menu : Menu} {P : List UInt8 → Prop} : (∀ name ∈ menu.names, P name) ↔
    P menu.id ∧ ∀ entry ∈ itemEntries 1 menu.items, entry.2.kind ≠ .separator → P entry.2.id := by
  rw [Menu.names, List.forall_mem_cons]
  refine and_congr_right fun _ => ?_
  constructor
  · exact fun h entry hentry hkind => h _ (item_ids_mem.mpr ⟨entry, hentry, hkind, rfl⟩)
  · intro h id hid
    obtain ⟨entry, hentry, hkind, rfl⟩ := item_ids_mem.mp hid
    exact h entry hentry hkind

theorem forall_labels {menu : Menu} {tray : Tray} {P : List UInt8 × Nat → Prop} :
    (∀ label ∈ menu.labels tray, P label) ↔ P (menu.label, 80) ∧ P (tray.tooltip, 128) ∧
      ∀ entry ∈ itemEntries 1 menu.items, entry.2.kind ≠ .separator → P (entry.2.label, 80) := by
  rw [Menu.labels, List.forall_mem_cons, List.forall_mem_cons, List.forall_mem_map]
  refine and_congr_right fun _ => and_congr_right fun _ => ?_
  constructor
  · exact fun h entry hentry hkind => h entry (List.mem_filter.mpr ⟨hentry, decide_eq_true hkind⟩)
  · intro h entry hentry
    obtain ⟨hentry, hkind⟩ := List.mem_filter.mp hentry
    exact h entry hentry (of_decide_eq_true hkind)

/-- Separators have no accelerator. -/
theorem MenuItem.Shaped.accelerated {item : MenuItem} (h : item.Shaped)
    {accelerator : List UInt8} (hmem : accelerator ∈ item.accelerator) :
    item.kind ≠ .separator := by
  intro hkind
  unfold MenuItem.Shaped at h
  rw [hkind] at h
  rw [h.2.2.2.1] at hmem
  cases hmem

/-- PHP builds a menu in order down to the seventh level. -/
theorem built_iff (menu : Menu) (tray : Tray) :
    (menu.construct = .ok () ∧ tray.check = .ok () ∧ tray.menuId = menu.id ∧ menu.items ≠ []) ↔
      InOrder menu tray ∧ menu.Levels 7 := by
  unfold Menu.construct Menu.check Tray.check
  simp only [check_bind_ok, construct_items_iff menu.items 1, check_iff, assert_unique_iff,
    assert_identifier_iff, assert_label_iff]
  constructor
  · intro h
    obtain ⟨⟨hitems, hid, hlabel, hlevels, hids, hcount⟩, ⟨-, htooltip⟩, htray, hsome⟩ := h
    refine ⟨⟨htray, hsome, hcount, hids, fun entry hentry => (hitems entry hentry).1, ?_, ?_, ?_⟩,
      hlevels⟩
    · intro entry hentry accelerator hmem
      obtain ⟨hshaped, htexts⟩ := hitems entry hentry
      exact (htexts (hshaped.accelerated hmem)).2.2 accelerator hmem
    · exact forall_names.mpr ⟨hid, fun entry hentry hkind => ((hitems entry hentry).2 hkind).1⟩
    · exact forall_labels.mpr
        ⟨hlabel, htooltip, fun entry hentry hkind => ((hitems entry hentry).2 hkind).2.1⟩
  · intro h
    obtain ⟨horder, hlevels⟩ := h
    obtain ⟨hid, hnames⟩ := forall_names.mp horder.names
    obtain ⟨hlabel, htooltip, hlabels⟩ := forall_labels.mp horder.labels
    refine ⟨⟨fun entry hentry => ⟨horder.shaped entry hentry, fun hkind => ?_⟩, hid, hlabel,
      hlevels, horder.ids, horder.count⟩, ⟨horder.registered ▸ hid, htooltip⟩, horder.registered,
      horder.nonempty⟩
    exact ⟨hnames entry hentry hkind, hlabels entry hentry hkind,
      horder.accelerators entry hentry⟩

end PamDesktop.Php
