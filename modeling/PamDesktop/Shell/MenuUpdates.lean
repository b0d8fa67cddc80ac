import PamDesktop.Php.MenuAgreement

/-!
# Updates of a menu

`set_item_enabled`, `set_item_checked` and `find_checked` of the native shell: searches through a
menu that end at the first item that fits. `menu_updates_exact` says what any sequence of updates
makes of a menu that the host has accepted.
-/

namespace PamDesktop.Shell

open Foundations Protocol Php

/-! ## Searching a menu -/

mutual

/-- The loop of `set_item_enabled` and `set_item_checked`: the first item that fits is changed, an
item before those inside it. -/
def updateFirst (fits : MenuItemConfig → Bool) (change : MenuItemConfig → MenuItemConfig) :
    List MenuItemConfig → Option (List MenuItemConfig)
  | [] => none
  | item :: rest =>
      match updateItem fits change item with
      | some item => some (item :: rest)
      | none => (updateFirst fits change rest).map fun rest => item :: rest
termination_by structural items => items

/-- The body of the loop. -/
def updateItem (fits : MenuItemConfig → Bool) (change : MenuItemConfig → MenuItemConfig) :
    MenuItemConfig → Option MenuItemConfig
  | ⟨kind, id, label, enabled, checked, accelerator, items⟩ =>
      if fits ⟨kind, id, label, enabled, checked, accelerator, items⟩ then
        some (change ⟨kind, id, label, enabled, checked, accelerator, items⟩)
      else
        (updateFirst fits change items).map fun items =>
          ⟨kind, id, label, enabled, checked, accelerator, items⟩
termination_by structural item => item

end

/-- `set_item_enabled`. -/
def setItemEnabled (items : List MenuItemConfig) (id : String) (enabled : Bool) :
    Option (List MenuItemConfig) :=
  updateFirst (fun item => item.id == id) (fun item => { item with enabled }) items

/-- `set_item_checked`. -/
def setItemChecked (items : List MenuItemConfig) (id : String) (checked : Bool) :
    Option (List MenuItemConfig) :=
  updateFirst (fun item => item.id == id && item.kind == .checkbox)
    (fun item => { item with checked }) items

mutual

/-- `find_checked`. -/
def findChecked (id : String) : List MenuItemConfig → Option Bool
  | [] => none
  | item :: rest => (checkedIn id item).or (findChecked id rest)
termination_by structural items => items

def checkedIn (id : String) : MenuItemConfig → Option Bool
  | ⟨kind, id', _, _, checked, _, items⟩ =>
      if id' == id && kind == .checkbox then some checked else findChecked id items
termination_by structural item => item

end

/-! ## Updates -/

/-- An update of the menu of a tray. -/
inductive MenuUpdate where
  | enabled (id : String) (value : Bool)
  | checked (id : String) (value : Bool)

namespace MenuUpdate

def id : MenuUpdate → String
  | .enabled id _ => id
  | .checked id _ => id

/-- The item is one that the update is for. -/
def fits : MenuUpdate → MenuItemConfig → Bool
  | .enabled id _, item => item.id == id
  | .checked id _, item => item.id == id && item.kind == .checkbox

/-- What becomes of that item. -/
def change : MenuUpdate → MenuItemConfig → MenuItemConfig
  | .enabled _ value, item => { item with enabled := value }
  | .checked _ value, item => { item with checked := value }

/-- What is reported when there is no such item. -/
def missing : MenuUpdate → String
  | .enabled id _ => "menu item " ++ debugText id ++ " was not found"
  | .checked id _ => "checkbox menu item " ++ debugText id ++ " was not found"

/-- The search for the item. -/
def search : MenuUpdate → List MenuItemConfig → Option (List MenuItemConfig)
  | .enabled id value, items => setItemEnabled items id value
  | .checked id value, items => setItemChecked items id value

/-- `set_menu_enabled` and `set_menu_checked` of a tray that is alive. -/
def apply (update : MenuUpdate) (items : List MenuItemConfig) :
    Except String Unit × List MenuItemConfig :=
  match update.search items with
  | some items => (.ok (), items)
  | none => (.error update.missing, items)

end MenuUpdate

/-- The menu after a sequence of updates. -/
def afterUpdates (updates : List MenuUpdate) (items : List MenuItemConfig) :
    List MenuItemConfig :=
  updates.foldl (fun items update => (update.apply items).2) items

/-! ## Changing items and nothing else -/

mutual

/-- Change every item by what it is without the items inside it. -/
def mapItems (f : MenuItemConfig → MenuItemConfig) : List MenuItemConfig → List MenuItemConfig
  | [] => []
  | item :: rest => mapItem f item :: mapItems f rest
termination_by structural items => items

def mapItem (f : MenuItemConfig → MenuItemConfig) : MenuItemConfig → MenuItemConfig
  | ⟨kind, id, label, enabled, checked, accelerator, items⟩ =>
      { f ⟨kind, id, label, enabled, checked, accelerator, []⟩ with items := mapItems f items }
termination_by structural item => item

end

/-- The item that an update is for is changed, every other one is left. -/
def MenuUpdate.only (update : MenuUpdate) (item : MenuItemConfig) : MenuItemConfig :=
  if update.fits item then update.change item else item

/-- The value that an update gives the flag `enabled` of an item. -/
def MenuUpdate.enables (item : MenuItemConfig) : MenuUpdate → Option Bool
  | .enabled id value => if item.id == id then some value else none
  | .checked _ _ => none

/-- The value that an update gives the mark of an item, if the item is a checkbox. -/
def MenuUpdate.checks (item : MenuItemConfig) : MenuUpdate → Option Bool
  | .enabled _ _ => none
  | .checked id value => if item.id == id && item.kind == .checkbox then some value else none

/-- An item with the flags that the last updates for it leave. -/
def settled (updates : List MenuUpdate) (item : MenuItemConfig) : MenuItemConfig :=
  { item with
    enabled := (updates.filterMap (MenuUpdate.enables item)).getLast?.getD item.enabled
    checked := (updates.filterMap (MenuUpdate.checks item)).getLast?.getD item.checked }

/-- All items of a menu, in the order of the search. -/
def allItems (items : List MenuItemConfig) : List MenuItemConfig :=
  (configEntries 1 items).map Prod.snd

/-- No two of these items have the same identifier, unless it is empty. -/
def Apart (items : List MenuItemConfig) : Prop :=
  ((items.map (·.id)).filter fun id => id ≠ "").Nodup

/-- The same of all items of a menu. -/
def DistinctIds (items : List MenuItemConfig) : Prop := Apart (allItems items)

/-! ## Items and identifiers -/

mutual

theorem entries_of_depth : ∀ (item : MenuItemConfig) (depth depth' : Nat),
    (configEntriesOf depth item).map Prod.snd = (configEntriesOf depth' item).map Prod.snd
  | ⟨kind, id, label, enabled, checked, accelerator, items⟩, depth, depth' => by
      rw [configEntriesOf, configEntriesOf, List.map_cons, List.map_cons,
        entries_depth items (depth + 1) (depth' + 1)]

/-- The items do not depend on the level at which one begins to count. -/
theorem entries_depth : ∀ (items : List MenuItemConfig) (depth depth' : Nat),
    (configEntries depth items).map Prod.snd = (configEntries depth' items).map Prod.snd
  | [], _, _ => rfl
  | item :: rest, depth, depth' => by
      rw [configEntries, configEntries, List.map_append, List.map_append,
        entries_of_depth item depth depth', entries_depth rest depth depth']

end

theorem all_items_nil : allItems [] = [] := rfl

/-- An item comes before those inside it. -/
theorem all_items_cons (item : MenuItemConfig) (rest : List MenuItemConfig) :
    allItems (item :: rest) = item :: (allItems item.items ++ allItems rest) := by
  obtain ⟨kind, id, label, enabled, checked, accelerator, items⟩ := item
  unfold allItems
  rw [configEntries, configEntriesOf, List.map_append, List.map_cons,
    entries_depth items (1 + 1) 1]
  rfl

theorem map_item_items (f : MenuItemConfig → MenuItemConfig) (item : MenuItemConfig) :
    (mapItem f item).items = mapItems f item.items := by
  obtain ⟨kind, id, label, enabled, checked, accelerator, items⟩ := item
  rw [mapItem]

mutual

theorem all_of_map_item (f : MenuItemConfig → MenuItemConfig) : ∀ item : MenuItemConfig,
    allItems (mapItem f item).items = (allItems item.items).map (mapItem f)
  | ⟨kind, id, label, enabled, checked, accelerator, items⟩ => by
      rw [map_item_items]
      exact all_items_map f items

/-- The items of a changed menu are the changed items. -/
theorem all_items_map (f : MenuItemConfig → MenuItemConfig) : ∀ items : List MenuItemConfig,
    allItems (mapItems f items) = (allItems items).map (mapItem f)
  | [] => rfl
  | item :: rest => by
      rw [mapItems, all_items_cons, all_items_cons, all_of_map_item f item, all_items_map f rest,
        List.map_cons, List.map_append]

end

/-- A change that leaves the identifiers. -/
def KeepsIds (f : MenuItemConfig → MenuItemConfig) : Prop := ∀ item, (f item).id = item.id

theorem map_item_id {f : MenuItemConfig → MenuItemConfig} (hf : KeepsIds f)
    (item : MenuItemConfig) : (mapItem f item).id = item.id := by
  obtain ⟨kind, id, label, enabled, checked, accelerator, items⟩ := item
  rw [mapItem]
  exact hf _

theorem DistinctIds.map {f : MenuItemConfig → MenuItemConfig} (hf : KeepsIds f)
    {items : List MenuItemConfig} (h : DistinctIds items) : DistinctIds (mapItems f items) := by
  have hids : (allItems (mapItems f items)).map (·.id) = (allItems items).map (·.id) := by
    rw [all_items_map, List.map_map]
    exact List.map_congr_left fun item _ => map_item_id hf item
  unfold DistinctIds Apart
  rw [hids]
  exact h

theorem Apart.append {first second : List MenuItemConfig} (h : Apart (first ++ second)) :
    Apart first ∧ Apart second ∧
      ∀ item ∈ first, ∀ other ∈ second, item.id ≠ "" → item.id ≠ other.id := by
  unfold Apart at h
  rw [List.map_append, List.filter_append] at h
  obtain ⟨hfirst, hsecond, hapart⟩ := List.nodup_append.mp h
  refine ⟨hfirst, hsecond, fun item hitem other hother hne heq => ?_⟩
  have hthere : item.id ∈ (first.map (·.id)).filter fun id => id ≠ "" :=
    List.mem_filter.mpr ⟨List.mem_map_of_mem hitem, decide_eq_true hne⟩
  have hthere' : other.id ∈ (second.map (·.id)).filter fun id => id ≠ "" :=
    List.mem_filter.mpr ⟨List.mem_map_of_mem hother, decide_eq_true (heq ▸ hne)⟩
  exact hapart _ hthere _ hthere' heq

namespace MenuUpdate

theorem id_of_fits {update : MenuUpdate} {item : MenuItemConfig} (h : update.fits item = true) :
    item.id = update.id := by
  cases update with
  | enabled id value => exact beq_iff_eq.mp h
  | checked id value => exact beq_iff_eq.mp (Bool.and_eq_true_iff.mp h).1

theorem only_keeps_ids (update : MenuUpdate) : KeepsIds update.only := by
  intro item
  unfold only
  split
  · cases update <;> rfl
  · rfl

/-- Whether an update is for an item does not depend on what is inside it. -/
theorem fits_items (update : MenuUpdate) (item : MenuItemConfig) (items : List MenuItemConfig) :
    update.fits { item with items } = update.fits item := by
  cases update <;> rfl

theorem search_eq (update : MenuUpdate) (items : List MenuItemConfig) :
    update.search items = updateFirst update.fits update.change items := by
  cases update <;> rfl

end MenuUpdate

/-- An item that the update is for keeps what is inside it, any other item is left. -/
theorem map_item_only (update : MenuUpdate) (item : MenuItemConfig)
    (hinside : mapItems update.only item.items = item.items) :
    mapItem update.only item = update.only item := by
  obtain ⟨kind, id, label, enabled, checked, accelerator, items⟩ := item
  have hitems : mapItems update.only items = items := hinside
  rw [mapItem, hitems]
  unfold MenuUpdate.only
  have hfits := update.fits_items ⟨kind, id, label, enabled, checked, accelerator, []⟩ items
  rw [show ({ (⟨kind, id, label, enabled, checked, accelerator, []⟩ : MenuItemConfig) with items } :
    MenuItemConfig) = ⟨kind, id, label, enabled, checked, accelerator, items⟩ from rfl] at hfits
  rw [hfits]
  split
  · cases update <;> rfl
  · rfl

mutual

theorem map_item_unfit (update : MenuUpdate) : ∀ item : MenuItemConfig,
    update.fits item = false → (∀ inner ∈ allItems item.items, update.fits inner = false) →
      mapItem update.only item = item
  | ⟨kind, id, label, enabled, checked, accelerator, items⟩, hitem, hinside => by
      rw [map_item_only update _ (map_items_unfit update items hinside), MenuUpdate.only, hitem]
      rfl

/-- Where no item fits, nothing is changed. -/
theorem map_items_unfit (update : MenuUpdate) : ∀ items : List MenuItemConfig,
    (∀ item ∈ allItems items, update.fits item = false) → mapItems update.only items = items
  | [], _ => rfl
  | item :: rest, h => by
      rw [all_items_cons] at h
      rw [mapItems, map_item_unfit update item (h item List.mem_cons_self) fun inner hinner =>
          h inner (List.mem_cons_of_mem _ (List.mem_append_left _ hinner)),
        map_items_unfit update rest fun inner hinner =>
          h inner (List.mem_cons_of_mem _ (List.mem_append_right _ hinner))]

end

/-- Among items that are apart, an update is for none of those beside one that it is for. -/
theorem Apart.unfit {update : MenuUpdate} (hid : update.id ≠ "")
    {first second : List MenuItemConfig} (h : Apart (first ++ second)) {item : MenuItemConfig} (hitem : item ∈ first)
    (hfits : update.fits item = true) : ∀ other ∈ second, update.fits other = false := by
  intro other hother
  have hitemid := MenuUpdate.id_of_fits hfits
  have hne := h.append.2.2 item hitem other hother (by rw [hitemid]; exact hid)
  cases hfit : update.fits other with
  | false => rfl
  | true => exact absurd (hitemid.trans (MenuUpdate.id_of_fits hfit).symm) hne

mutual

theorem update_item_eq (update : MenuUpdate) (hid : update.id ≠ "") : ∀ item : MenuItemConfig,
    Apart (item :: allItems item.items) →
      updateItem update.fits update.change item =
        if (item :: allItems item.items).any update.fits then some (mapItem update.only item)
        else none
  | ⟨kind, id, label, enabled, checked, accelerator, items⟩, hapart => by
      have hparts : Apart ([⟨kind, id, label, enabled, checked, accelerator, items⟩] ++
          allItems items) := hapart
      have hinner : DistinctIds items := hparts.append.2.1
      rw [updateItem, List.any_cons]
      cases hfits : update.fits ⟨kind, id, label, enabled, checked, accelerator, items⟩ with
      | true =>
          have hrest := hparts.unfit hid List.mem_cons_self hfits
          rw [if_pos rfl, Bool.true_or, if_pos rfl,
            map_item_only update _ (map_items_unfit update items hrest), MenuUpdate.only, hfits]
          rfl
      | false =>
          rw [if_neg Bool.false_ne_true, Bool.false_or, update_first_eq update hid items hinner]
          show _ = if (allItems items).any update.fits then _ else none
          split
          · have hleft : update.fits ⟨kind, id, label, enabled, checked, accelerator, []⟩ = false :=
              (update.fits_items ⟨kind, id, label, enabled, checked, accelerator, items⟩ []).trans
                hfits
            rw [mapItem, MenuUpdate.only, hleft]
            rfl
          · rfl

/-- The search of the host changes the item that an update is for, if there is one. -/
theorem update_first_eq (update : MenuUpdate) (hid : update.id ≠ "") :
    ∀ items : List MenuItemConfig, DistinctIds items →
      updateFirst update.fits update.change items =
        if (allItems items).any update.fits then some (mapItems update.only items) else none
  | [], _ => rfl
  | item :: rest, hdistinct => by
      unfold DistinctIds at hdistinct
      rw [all_items_cons, ← List.cons_append] at hdistinct
      obtain ⟨hitem, hrest, -⟩ := hdistinct.append
      rw [updateFirst, update_item_eq update hid item hitem, all_items_cons, ← List.cons_append,
        List.any_append, mapItems]
      cases hfits : (item :: allItems item.items).any update.fits with
      | true =>
          obtain ⟨target, htarget, htargetfits⟩ := List.any_eq_true.mp hfits
          rw [map_items_unfit update rest (hdistinct.unfit hid htarget htargetfits)]
          rfl
      | false =>
          have hunfit := List.any_eq_false.mp hfits
          rw [update_first_eq update hid rest hrest, map_item_unfit update item
            (Bool.eq_false_iff.mpr (hunfit item List.mem_cons_self)) fun inner hinner =>
              Bool.eq_false_iff.mpr (hunfit inner (List.mem_cons_of_mem _ hinner))]
          cases (allItems rest).any update.fits <;> rfl

end

/-! ## What an accepted menu becomes -/

/-- Identifiers that differ where there are any. -/
theorem apart_of_keys {items : List MenuItemConfig}
    (hempty : ∀ item ∈ items, item.kind = .separator → item.id = "")
    (hnodup : (items.filterMap configKey).Nodup) : Apart items := by
  have hsublist : ((items.map (·.id)).filter fun id => id ≠ "").Sublist
      (items.filterMap configKey) := by
    clear hnodup
    induction items with
    | nil => exact .slnil
    | cons item rest ih =>
        have hrest := ih fun other hother => hempty other (List.mem_cons_of_mem _ hother)
        rw [List.map_cons, List.filterMap_cons, configKey]
        split
        · rename_i hkey
          split at hkey
          · rename_i hseparator
            rw [List.filter_cons_of_neg (by
              simp [hempty item List.mem_cons_self hseparator])]
            exact hrest
          · cases hkey
        · rename_i key hkey
          split at hkey
          · cases hkey
          · cases hkey
            rw [List.filter_cons]
            split
            · exact hrest.cons_cons item.id
            · exact hrest.cons item.id
  exact hnodup.sublist hsublist

/-- Validation keeps the identifiers of a menu apart. -/
theorem accepted_menu_distinct {menu : MenuConfig} {ids : List String} {count : Nat}
    {ledger : List String × Nat} (h : menu.validate ids count = .ok ledger) :
    DistinctIds menu.items := by
  simp only [MenuConfig.validate, bind, Except.bind] at h
  split at h
  · cases h
  · split at h
    · cases h
    · split at h
      · cases h
      · rw [validate_items_fold] at h
        obtain ⟨hgood, hnodup, -, -⟩ := (fold_ledger validate_enters _ _ _).mp h
        refine apart_of_keys (fun item hitem hseparator => ?_) ?_
        · obtain ⟨⟨depth, kind, id, label, enabled, checked, accelerator, items⟩, hentry, rfl⟩ :=
            List.mem_map.mp hitem
          obtain rfl : kind = .separator := hseparator
          have hshape := (hgood _ hentry).2.1
          rw [MenuItem.Shaped, MenuItem.ofConfig] at hshape
          exact os_string_empty.mp hshape.1
        · rw [allItems, List.filterMap_map]
          exact hnodup

/-- One more update settles the flags that it sets. -/
theorem settled_append (updates : List MenuUpdate) (update : MenuUpdate) (item : MenuItemConfig) :
    settled (updates ++ [update]) item = update.only (settled updates item) := by
  unfold settled
  rw [List.filterMap_append, List.filterMap_append]
  cases update with
  | enabled id value =>
      by_cases hid : (item.id == id) = true
      · simp [MenuUpdate.only, MenuUpdate.fits, MenuUpdate.change, MenuUpdate.enables,
          MenuUpdate.checks, hid]
      · simp [MenuUpdate.only, MenuUpdate.fits, MenuUpdate.enables, MenuUpdate.checks, hid]
  | checked id value =>
      by_cases hid : (item.id == id && item.kind == .checkbox) = true
      · simp [MenuUpdate.only, MenuUpdate.fits, MenuUpdate.change, MenuUpdate.enables,
          MenuUpdate.checks, hid]
      · simp [MenuUpdate.only, MenuUpdate.fits, MenuUpdate.enables, MenuUpdate.checks, hid]

mutual

theorem map_item_self {f : MenuItemConfig → MenuItemConfig} (hf : ∀ item, f item = item) :
    ∀ item : MenuItemConfig, mapItem f item = item
  | ⟨kind, id, label, enabled, checked, accelerator, items⟩ => by
      rw [mapItem, hf, map_items_self hf items]

theorem map_items_self {f : MenuItemConfig → MenuItemConfig} (hf : ∀ item, f item = item) :
    ∀ items : List MenuItemConfig, mapItems f items = items
  | [] => rfl
  | item :: rest => by rw [mapItems, map_item_self hf item, map_items_self hf rest]

end

mutual

theorem map_item_comp {f g : MenuItemConfig → MenuItemConfig}
    (hf : ∀ item, (f item).items = item.items) :
    ∀ item : MenuItemConfig, mapItem g (mapItem f item) = mapItem (fun item => g (f item)) item
  | ⟨kind, id, label, enabled, checked, accelerator, items⟩ => by
      have hown := hf ⟨kind, id, label, enabled, checked, accelerator, []⟩
      cases hf' : f ⟨kind, id, label, enabled, checked, accelerator, []⟩ with
      | mk kind' id' label' enabled' checked' accelerator' items' =>
          obtain rfl : items' = [] := by
            rw [hf'] at hown
            exact hown
          have hinner : mapItem f ⟨kind, id, label, enabled, checked, accelerator, items⟩ =
              ⟨kind', id', label', enabled', checked', accelerator', mapItems f items⟩ := by
            rw [mapItem, hf']
          rw [hinner, mapItem, mapItem, map_items_comp hf items]
          show _ = { g (f ⟨kind, id, label, enabled, checked, accelerator, []⟩) with
            items := mapItems (fun item => g (f item)) items }
          rw [hf']

/-- Changes of single items, one after the other. -/
theorem map_items_comp {f g : MenuItemConfig → MenuItemConfig}
    (hf : ∀ item, (f item).items = item.items) :
    ∀ items : List MenuItemConfig,
      mapItems g (mapItems f items) = mapItems (fun item => g (f item)) items
  | [] => rfl
  | item :: rest => by
      rw [mapItems, mapItems, mapItems, map_item_comp hf item, map_items_comp hf rest]

end

/-- What an update makes of a menu with distinct identifiers, and what it reports. -/
theorem apply_eq (update : MenuUpdate) (hid : update.id ≠ "") {items : List MenuItemConfig}
    (hdistinct : DistinctIds items) :
    update.apply items = ((if (allItems items).any update.fits then .ok ()
      else .error update.missing), mapItems update.only items) := by
  rw [MenuUpdate.apply, update.search_eq, update_first_eq update hid items hdistinct]
  cases hfits : (allItems items).any update.fits with
  | true => rfl
  | false =>
      rw [map_items_unfit update items fun item hitem =>
        Bool.eq_false_iff.mpr (List.any_eq_false.mp hfits item hitem)]
      rfl

theorem settled_keeps_ids (updates : List MenuUpdate) : KeepsIds (settled updates) := fun _ => rfl

/-- A run of updates leaves every item with the flags of the last updates for it. -/
theorem after_updates_eq {items : List MenuItemConfig} (hdistinct : DistinctIds items)
    (updates : List MenuUpdate) (hids : ∀ update ∈ updates, update.id ≠ "") :
    afterUpdates updates items = mapItems (settled updates) items := by
  induction updates using List.reverseRecOn with
  | nil =>
      have hself : ∀ item, settled [] item = item := fun item => by
        cases item
        rfl
      exact (map_items_self hself items).symm
  | append_singleton updates update ih =>
      have hbefore := ih fun other hother => hids other (List.mem_append_left _ hother)
      have hid := hids update (List.mem_append_right _ (List.mem_singleton.mpr rfl))
      have hkept : DistinctIds (mapItems (settled updates) items) :=
        hdistinct.map (settled_keeps_ids updates)
      have hstep : afterUpdates (updates ++ [update]) items =
          (update.apply (afterUpdates updates items)).2 := by
        simp only [afterUpdates, List.foldl_append, List.foldl_cons, List.foldl_nil]
      have hitems : ∀ item, (settled updates item).items = item.items := fun _ => rfl
      have hsettled : settled (updates ++ [update]) =
          fun item => update.only (settled updates item) :=
        funext fun item => settled_append updates update item
      rw [hstep, hbefore, apply_eq update hid hkept, hsettled]
      exact map_items_comp hitems items

/-- The one item that an update is for. -/
theorem Apart.only_one {update : MenuUpdate} (hid : update.id ≠ "") {items : List MenuItemConfig}
    (h : Apart items) (hfits : items.any update.fits = true) :
    ∃ before item after, items = before ++ item :: after ∧ update.fits item = true ∧
      ∀ other ∈ before ++ after, other.id ≠ update.id := by
  obtain ⟨item, hitem, hitemfits⟩ := List.any_eq_true.mp hfits
  obtain ⟨before, after, rfl⟩ := List.append_of_mem hitem
  have hitemid := MenuUpdate.id_of_fits hitemfits
  refine ⟨before, item, after, rfl, hitemfits, fun other hother heq => ?_⟩
  have hsplit : Apart ([item] ++ (before ++ after)) := by
    have hperm : (before ++ item :: after).Perm ([item] ++ (before ++ after)) :=
      List.perm_middle
    exact (((hperm.map _).filter _).nodup_iff).mp h
  have hne : item.id ≠ "" := by
    rw [hitemid]
    exact hid
  exact hsplit.append.2.2 item (List.mem_singleton.mpr rfl) other hother hne
    (hitemid.trans heq.symm)

/-- Updates of an accepted menu, one after the other. Each changes the one item that it is for, or,
if there is none, nothing, and says so; in the end every item has the flags of the last updates
for it. -/
theorem menu_updates_exact (menu : MenuConfig) (ids : List String) (count : Nat)
    (ledger : List String × Nat) (hvalid : menu.validate ids count = .ok ledger)
    (updates : List MenuUpdate) (hids : ∀ update ∈ updates, update.id ≠ "") :
    afterUpdates updates menu.items = mapItems (settled updates) menu.items ∧
    ∀ update : MenuUpdate, update.id ≠ "" →
      ((∃ item ∈ allItems menu.items, update.fits item = true) →
        update.apply (afterUpdates updates menu.items) =
          (.ok (), mapItems update.only (afterUpdates updates menu.items)) ∧
        ∃ before item after, allItems (afterUpdates updates menu.items) = before ++ item :: after ∧
          update.fits item = true ∧ ∀ other ∈ before ++ after, other.id ≠ update.id) ∧
      ((∀ item ∈ allItems menu.items, update.fits item = false) →
        update.apply (afterUpdates updates menu.items) =
          (.error update.missing, afterUpdates updates menu.items)) := by
  have hdistinct := accepted_menu_distinct hvalid
  have hafter := after_updates_eq hdistinct updates hids
  refine ⟨hafter, fun update hid => ?_⟩
  rw [hafter]
  have hkept : DistinctIds (mapItems (settled updates) menu.items) :=
    hdistinct.map (settled_keeps_ids updates)
  -- the updates before have changed no identifier and no kind
  have hfits : (allItems (mapItems (settled updates) menu.items)).any update.fits =
      (allItems menu.items).any update.fits := by
    rw [all_items_map, List.any_map]
    congr 1
    funext item
    obtain ⟨kind, id, label, enabled, checked, accelerator, items⟩ := item
    rw [Function.comp_apply, mapItem]
    cases update <;> rfl
  rw [apply_eq update hid hkept, hfits]
  constructor
  · intro hthere
    have hany : (allItems menu.items).any update.fits = true := List.any_eq_true.mpr hthere
    rw [hany]
    exact ⟨rfl, Apart.only_one hid hkept (hfits.trans hany)⟩
  · intro hmissing
    have hnone : (allItems menu.items).any update.fits = false :=
      List.any_eq_false.mpr fun item hitem => by rw [hmissing item hitem]; exact Bool.false_ne_true
    rw [hnone, map_items_unfit update _ fun item hitem =>
      Bool.eq_false_iff.mpr (List.any_eq_false.mp (hfits.trans hnone) item hitem)]
    rfl

/-- A menu with a checkbox in a submenu. -/
def viewMenu : MenuConfig where
  id := "view"
  label := "View"
  items := [
    { kind := .command, id := "reload", label := "Reload" },
    { kind := .separator },
    { kind := .submenu, id := "panels", label := "Panels", items := [
      { kind := .checkbox, id := "sidebar", label := "Sidebar" }] }]

/-- The checkbox in the submenu is marked by the last update for it, and a command cannot be. -/
theorem sidebar_marked :
    ∃ ledger, viewMenu.validate [] 0 = .ok ledger ∧
      afterUpdates [.checked "sidebar" false, .checked "sidebar" true] viewMenu.items =
        mapItems (settled [.checked "sidebar" false, .checked "sidebar" true]) viewMenu.items ∧
      (MenuUpdate.checked "reload" true).apply
          (afterUpdates [.checked "sidebar" false, .checked "sidebar" true] viewMenu.items) =
        (.error (MenuUpdate.missing (.checked "reload" true)),
          afterUpdates [.checked "sidebar" false, .checked "sidebar" true] viewMenu.items) := by
  refine ⟨(["sidebar", "panels", "reload"], 4), by decide +kernel, ?_⟩
  have hupdates := menu_updates_exact viewMenu [] 0 (["sidebar", "panels", "reload"], 4)
    (by decide +kernel) [.checked "sidebar" false, .checked "sidebar" true]
    (by simp [MenuUpdate.id])
  exact ⟨hupdates.1, (hupdates.2 (.checked "reload" true) (by decide)).2
    (fun item hitem => Bool.eq_false_iff.mpr
      (List.any_eq_false.mp (show (allItems viewMenu.items).any
        (MenuUpdate.fits (.checked "reload" true)) = false by decide +kernel) item hitem))⟩

/-! ## A checkbox that is activated -/

mutual

theorem checked_in_eq (id : String) : ∀ item : MenuItemConfig,
    checkedIn id item = ((item :: allItems item.items).find?
      (MenuUpdate.fits (.checked id true))).map (·.checked)
  | ⟨kind, id', label, enabled, checked, accelerator, items⟩ => by
      rw [checkedIn, List.find?_cons]
      show (if (id' == id && kind == .checkbox) = true then _ else _) = Option.map _
        (match id' == id && kind == .checkbox with | true => _ | false => _)
      cases id' == id && kind == .checkbox with
      | true => rfl
      | false => exact find_checked_eq id items

/-- `find_checked` reads the first checkbox with the identifier. -/
theorem find_checked_eq (id : String) : ∀ items : List MenuItemConfig,
    findChecked id items =
      ((allItems items).find? (MenuUpdate.fits (.checked id true))).map (·.checked)
  | [] => rfl
  | item :: rest => by
      rw [findChecked, checked_in_eq id item, find_checked_eq id rest, all_items_cons,
        ← List.cons_append, List.find?_append]
      cases (item :: allItems item.items).find? (MenuUpdate.fits (.checked id true)) <;> rfl

end

/-- The `activate` of a checkbox in the tray. -/
def activate (id : String) (items : List MenuItemConfig) : List MenuItemConfig :=
  let next := !(findChecked id items).getD false
  (setItemChecked items id next).getD items

/-- Activating a checkbox turns its mark over and changes nothing else. -/
theorem activate_turns_over {items : List MenuItemConfig} (hdistinct : DistinctIds items)
    {id : String} (hid : id ≠ "") {checkbox : MenuItemConfig} (hmem : checkbox ∈ allItems items)
    (hfits : checkbox.id = id ∧ checkbox.kind = .checkbox) :
    findChecked id items = some checkbox.checked ∧
      activate id items =
        mapItems (MenuUpdate.only (.checked id (!checkbox.checked))) items := by
  have hfits' : MenuUpdate.fits (.checked id true) checkbox = true :=
    Bool.and_eq_true_iff.mpr ⟨beq_iff_eq.mpr hfits.1, beq_iff_eq.mpr hfits.2⟩
  have hany : (allItems items).any (MenuUpdate.fits (.checked id true)) = true :=
    List.any_eq_true.mpr ⟨checkbox, hmem, hfits'⟩
  have hfound : findChecked id items = some checkbox.checked := by
    obtain ⟨before, item, after, hsplit, hitem, hothers⟩ := Apart.only_one
      (show (MenuUpdate.checked id true).id ≠ "" from hid) hdistinct hany
    have hbefore : before.find? (MenuUpdate.fits (.checked id true)) = none := by
      rw [List.find?_eq_none]
      intro other hother hfit
      exact hothers other (List.mem_append_left _ hother) (MenuUpdate.id_of_fits hfit)
    have hsame : checkbox = item := by
      rw [hsplit, List.mem_append, List.mem_cons] at hmem
      rcases hmem with hmem | hmem | hmem
      · exact absurd hfits.1 (hothers checkbox (List.mem_append_left _ hmem))
      · exact hmem
      · exact absurd hfits.1 (hothers checkbox (List.mem_append_right _ hmem))
    rw [find_checked_eq, hsplit, List.find?_append, hbefore, List.find?_cons, hitem, hsame]
    rfl
  refine ⟨hfound, ?_⟩
  have hsearch := update_first_eq (.checked id (!checkbox.checked)) hid items hdistinct
  have hany' : (allItems items).any (MenuUpdate.fits (.checked id (!checkbox.checked))) = true :=
    hany
  rw [hany'] at hsearch
  show (setItemChecked items id (!(findChecked id items).getD false)).getD items = _
  rw [hfound]
  show ((MenuUpdate.checked id (!checkbox.checked)).search items).getD items = _
  rw [MenuUpdate.search_eq, hsearch]
  rfl

end PamDesktop.Shell
