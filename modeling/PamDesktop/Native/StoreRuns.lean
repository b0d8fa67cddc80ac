import PamDesktop.Native.Restart

/-!
# Stores that can be read again

What a host has written after any persistent grants is the text of the grants that it has in
memory (`grant_all_synced`). Whether the next host can start from it is a matter of its length:
`store_readable_iff`.
-/

namespace PamDesktop.Native

open Foundations Protocol

/-! ## Reading the store again -/

/-- Persistent grants that all succeed. -/
def grantAll (storePath : Location) : List (Selection × FileAccess) → Grants → Option Grants
  | [], s => some s
  | (selection, access) :: rest, s =>
      match grantPathWithPersistence storePath selection.turn selection.path access true s with
      | (.ok _, after) => grantAll storePath rest after
      | (.error _, _) => none

/-- The store holds what is in memory. -/
structure Synced (s : Grants) : Prop where
  storable : Storable s.persistentGrants
  stored : s.stored = some ⟨false, (grantsJson s.persistentGrants).bytes⟩

theorem encode_grants_ok {grants : PersistentGrants} {bytes : List UInt8}
    (h : encodeGrants grants = .ok bytes) :
    (∀ entry ∈ grants, (pathText entry.2.path).isSome = true) ∧
      bytes = (grantsJson grants).bytes := by
  unfold encodeGrants at h
  split at h
  · rename_i hall
    cases h
    exact ⟨List.all_eq_true.mp hall, rfl⟩
  · cases h

theorem persist_grants_ok {writes : Writes} {path : Location} {grants : PersistentGrants}
    {bytes : List UInt8} (h : persistGrants writes path grants = .ok bytes) :
    grants.length ≤ maxPersistentGrants ∧
      (∀ entry ∈ grants, (pathText entry.2.path).isSome = true) ∧
      bytes = (grantsJson grants).bytes := by
  unfold persistGrants at h
  split at h
  · cases h
  · rename_i hbound
    split at h
    · cases h
    · obtain ⟨⟨⟩, -, h⟩ := except_bind_ok.mp h
      obtain ⟨encoded, hencoded, h⟩ := except_bind_ok.mp h
      obtain ⟨⟨⟩, -, h⟩ := except_bind_ok.mp h
      obtain ⟨⟨⟩, -, h⟩ := except_bind_ok.mp h
      obtain ⟨⟨⟩, -, h⟩ := except_bind_ok.mp h
      cases h
      exact ⟨Nat.le_of_not_lt hbound, encode_grants_ok hencoded⟩

theorem insert_grant_distinct {α : Type} {id : String} {grant : α} {grants : List (String × α)}
    (h : (grants.map Prod.fst).Nodup) : ((insertGrant id grant grants).map Prod.fst).Nodup := by
  unfold insertGrant
  rw [List.map_cons, List.nodup_cons]
  constructor
  · intro hmem
    obtain ⟨entry, hentry, heq⟩ := List.mem_map.mp hmem
    exact of_decide_eq_true (List.mem_filter.mp hentry).2 heq
  · exact h.sublist (List.filter_sublist.map Prod.fst)

theorem hex_id_valid (token : Token) :
    (Updater.encodeHex token.1).utf8ByteSize = 64 ∧
      (osString (Updater.encodeHex token.1)).all isHexByte = true := by
  constructor
  · rw [Updater.encode_hex_length, token.2]
  · have hdigit : ∀ half < 16,
        isHexByte (UInt8.ofNat (Updater.hexDigits.getD half '0').toNat) = true := by decide
    rw [Updater.os_string_encode_hex, List.all_eq_true]
    intro byte hbyte
    obtain ⟨source, _, hpair⟩ := List.mem_flatMap.mp hbyte
    have hsource := source.toNat_lt
    obtain rfl | hpair := List.mem_cons.mp hpair
    · exact hdigit _ (by rw [Updater.high_half]; omega)
    · obtain rfl := List.mem_singleton.mp hpair
      exact hdigit _ (by rw [Updater.low_half]; omega)

theorem persist_grant_ok {storePath : Location} {turn : Turn} {selected : Location}
    {access : FileAccess} {id : String} {s after : Grants}
    (h : persistGrant storePath turn selected access id s = (.ok (), after)) :
    ∃ canonical bytes, persistGrants turn.writes storePath
        (insertGrant id ⟨pathBytes canonical, access⟩ s.persistentGrants) = .ok bytes ∧
      after = { s with
        persistentGrants := insertGrant id ⟨pathBytes canonical, access⟩ s.persistentGrants
        stored := some ⟨false, bytes⟩ } := by
  unfold persistGrant at h
  split at h
  · cases h
  · rename_i canonical _
    split at h
    · cases h
    · dsimp only at h
      split at h
      · cases h
      · rename_i bytes hwritten
        cases h
        exact ⟨canonical, bytes, hwritten, rfl⟩

/-- After a persistent grant the store holds what is in memory. -/
theorem grant_synced {storePath : Location} {selection : Selection} {access : FileAccess}
    {reference : FileReference} {s after : Grants} (hs : Storable s.persistentGrants)
    (h : grantPathWithPersistence storePath selection.turn selection.path access true s =
      (.ok reference, after)) : Synced after := by
  unfold grantPathWithPersistence at h
  split at h
  · cases h
  · cases hrandom : selection.turn.random with
    | error error =>
        rw [hrandom] at h
        cases h
    | ok token =>
        rw [hrandom] at h
        simp only [secureGrantId, if_true] at h
        split at h
        · cases h
        · split at h
          · cases h
          · rename_i stored hstored
            cases h
            obtain ⟨canonical, bytes, hwritten, hafter⟩ := persist_grant_ok hstored
            obtain ⟨hbound, htexts, hbytes⟩ := persist_grants_ok hwritten
            rw [hafter]
            refine ⟨⟨insert_grant_distinct hs.distinct, hbound, ?_, htexts⟩, by rw [← hbytes]⟩
            intro entry hentry
            obtain rfl | hentry := List.mem_cons.mp hentry
            · obtain ⟨hsize, hhex⟩ := hex_id_valid token
              unfold validEntry
              rw [hsize, hhex]
              rfl
            · exact hs.valid entry (List.mem_filter.mp hentry).1

theorem read_entries_decoded {codec : Codec PersistentGrant} {members : List (String × Json)}
    {read all : {entries // Sorted PersistentGrant entries}}
    (h : readEntries codec read members = some all) :
    ∀ entry ∈ all.1, entry ∈ read.1 ∨ ∃ json, codec.decode json = some entry.2 := by
  induction members generalizing read with
  | nil =>
      cases h
      exact fun entry hentry => .inl hentry
  | cons member rest ih =>
      obtain ⟨name, json⟩ := member
      obtain ⟨value, hvalue, h⟩ := Option.bind_eq_some_iff.mp h
      intro entry hentry
      obtain hread | hdecoded := ih h entry hentry
      · obtain rfl | hread := mem_insert_entry hread
        · exact .inr ⟨json, hvalue⟩
        · exact .inl hread
      · exact .inr hdecoded

theorem decoded_path {member : Option Json} {path : OsString}
    (h : (match member with
      | some json => pathCodec.decode json
      | none => none) = some path) : (pathText path).isSome = true := by
  cases member with
  | none => cases h
  | some json =>
      cases json with
      | string value =>
          cases h
          exact Option.isSome_iff_exists.mpr ⟨value, from_utf8_os_string value⟩
      | null => cases h
      | bool value => cases h
      | number value => cases h
      | decimal text => cases h
      | array items => cases h
      | object members => cases h

/-- A path that was read is a text. -/
theorem decoded_path_text {json : Json} {grant : PersistentGrant}
    (h : PersistentGrant.codec.decode json = some grant) : (pathText grant.path).isSome = true := by
  cases json with
  | object members =>
      unfold PersistentGrant.codec Record.codec at h
      dsimp only at h
      split at h
      · cases h
      · split at h
        · obtain ⟨build, hbuild, h⟩ := Option.bind_eq_some_iff.mp h
          obtain ⟨path, hpath, hbuild⟩ := Option.bind_eq_some_iff.mp hbuild
          obtain ⟨access, haccess, h⟩ := Option.bind_eq_some_iff.mp h
          cases hbuild
          cases h
          exact decoded_path hpath
        · cases h
  | array items =>
      unfold PersistentGrant.codec Record.codec at h
      dsimp only at h
      split at h
      · rename_i found hread
        cases h
        obtain ⟨⟨build, rest⟩, hbuild, hread⟩ := Option.bind_eq_some_iff.mp hread
        obtain ⟨path, hpath, hbuild⟩ := Option.bind_eq_some_iff.mp hbuild
        obtain ⟨access, haccess, hread⟩ := Option.bind_eq_some_iff.mp hread
        cases hbuild
        have hgrant := congrArg Prod.fst (Option.some.inj hread)
        dsimp only at hgrant
        rw [← hgrant]
        exact decoded_path hpath
      · cases h
  | null => cases h
  | bool value => cases h
  | number value => cases h
  | decimal text => cases h
  | string value => cases h

/-- What is read from a store can be stored. -/
theorem loaded_storable {reader : JsonReader} {stored : Option StoreFile}
    {loaded : {entries // Sorted PersistentGrant entries}}
    (h : loadPersistentGrants reader stored = .ok loaded) : Storable loaded.1 := by
  cases stored with
  | none =>
      cases h
      exact ⟨List.nodup_nil, Nat.zero_le _, nofun, nofun⟩
  | some file =>
      unfold loadPersistentGrants at h
      dsimp only at h
      split at h
      · cases h
      · split at h
        · cases h
        · rename_i grants hread
          split at h
          · cases h
          · rename_i hvalid
            cases h
            rw [Bool.or_eq_true, not_or, decide_eq_true_eq, Bool.not_eq_true', Bool.not_eq_false,
              List.all_eq_true] at hvalid
            refine ⟨sorted_distinct loaded.2, Nat.le_of_not_lt hvalid.1, hvalid.2, ?_⟩
            intro entry hentry
            obtain ⟨json, _, hdecoded⟩ := Option.bind_eq_some_iff.mp hread
            cases json with
            | object members =>
                obtain hnone | ⟨value, hvalue⟩ := read_entries_decoded hdecoded entry hentry
                · cases hnone
                · exact decoded_path_text hvalue
            | null => cases hdecoded
            | bool value => cases hdecoded
            | number value => cases hdecoded
            | decimal text => cases hdecoded
            | string value => cases hdecoded
            | array items => cases hdecoded

theorem grant_all_synced {storePath : Location} {grants : List (Selection × FileAccess)}
    {s after : Grants} (hs : Storable s.persistentGrants) (hne : grants ≠ [])
    (h : grantAll storePath grants s = some after) : Synced after := by
  induction grants generalizing s with
  | nil => exact absurd rfl hne
  | cons head rest ih =>
      rw [grantAll] at h
      split at h
      · rename_i reference middle hstep
        have hsynced := grant_synced hs hstep
        cases rest with
        | nil =>
            cases h
            exact hsynced
        | cons next others => exact ih hsynced.storable (List.cons_ne_nil _ _) h
      · cases h

/-- Every path is that of a file. -/
def anyFile : Files where
  symlinkMetadata _ := .ok .file
  canonicalize path := .ok path
  openDirectory _ := .ok ()

/-- A file selected for reading, under this id. -/
def selectedAs (path : Location) (token : Token) : Selection × FileAccess :=
  (⟨⟨anyFile, .ok token, anyFile, ⟨.ok (), .ok (), .ok (), .ok ()⟩⟩, path⟩, .read)

/-- A store that can be written is written. -/
theorem persist_undisturbed {grants : PersistentGrants}
    (hbound : grants.length ≤ maxPersistentGrants)
    (htexts : ∀ entry ∈ grants, (pathText entry.2.path).isSome = true) :
    persistGrants ⟨.ok (), .ok (), .ok (), .ok ()⟩ [[103]] grants =
      .ok (grantsJson grants).bytes := by
  have hencoded : encodeGrants grants = .ok (grantsJson grants).bytes := by
    unfold encodeGrants
    rw [if_pos (List.all_eq_true.mpr htexts)]
  unfold persistGrants
  rw [if_neg (Nat.not_lt.mpr hbound), hencoded]
  rfl

/-- One more persistent grant of a file. -/
theorem grant_again {place : Location} {name : OsString} {token : Token} {s : Grants}
    (hname : name ≠ [46, 46]) (hlocks : s.locks = ⟨false, false⟩)
    (hgrants : Updater.encodeHex token.1 ∉ s.grants.map Prod.fst)
    (hentries : Updater.encodeHex token.1 ∉ s.persistentGrants.map Prod.fst)
    (hbound : s.persistentGrants.length < maxPersistentGrants)
    (htexts : ∀ entry ∈ (Updater.encodeHex token.1, ⟨pathBytes (place ++ [name]), .read⟩) ::
      s.persistentGrants, (pathText entry.2.path).isSome = true) :
    ∃ reference after grant, grantPathWithPersistence [[103]]
        (selectedAs (place ++ [name]) token).1.turn (place ++ [name]) .read true s =
          (.ok reference, after) ∧
      after.locks = s.locks ∧ after.grants = (Updater.encodeHex token.1, grant) :: s.grants ∧
      after.persistentGrants =
        (Updater.encodeHex token.1, ⟨pathBytes (place ++ [name]), .read⟩) ::
          s.persistentGrants := by
  have hpresent : Present anyFile (place ++ [name]) .read .file (place ++ [name]) :=
    .file rfl rfl hname rfl
  obtain ⟨grant, hcreated, _, _⟩ := create_file_grant_of_present hpresent
  have hcreatable : Creatable .read s.locks (selectedAs (place ++ [name]) token).1 :=
    ⟨⟨grant, hcreated⟩, ⟨_, rfl⟩, by rw [hlocks]⟩
  have hsettled : Settled .read s.locks (selectedAs (place ++ [name]) token).1 :=
    ⟨⟨_, rfl⟩, by rw [hlocks]⟩
  have hgrantable : Grantable [[103]] .read true s.locks s.persistentGrants
      (selectedAs (place ++ [name]) token).1 :=
    ⟨hcreatable, fun _ => hsettled, fun _ => ⟨_, persist_undisturbed hbound htexts⟩⟩
  have houtcome : Outcome [[103]] .read true s (selectedAs (place ++ [name]) token).1 _ :=
    grant_path_outcome fun id hid => by
      cases hid
      exact ⟨hgrants, hentries⟩
  generalize hstep : grantPathWithPersistence [[103]]
    (selectedAs (place ++ [name]) token).1.turn (selectedAs (place ++ [name]) token).1.path .read
    true s = outcome at houtcome
  cases houtcome with
  | refused hnot _ => exact absurd hgrantable hnot
  | late hlate _ _ => exact absurd hsettled hlate.unsettled
  | @granted reference id granted after _ hid hafter hentry hlock =>
      cases hid
      exact ⟨reference, after, granted, hstep, hlock, hafter, hentry⟩

theorem grant_all_granted {storePath : Location} {selection : Selection} {access : FileAccess}
    {rest : List (Selection × FileAccess)} {reference : FileReference} {s after : Grants}
    (h : grantPathWithPersistence storePath selection.turn selection.path access true s =
      (.ok reference, after)) :
    grantAll storePath ((selection, access) :: rest) s = grantAll storePath rest after := by
  rw [grantAll, h]

/-- Any number of persistent grants of a file, as far as the store admits them. -/
theorem grant_repeatedly {place : Location} {name : OsString} {tokens : List Token} {s : Grants}
    (hname : name ≠ [46, 46]) (hlocks : s.locks = ⟨false, false⟩)
    (hids : s.grants.map Prod.fst = s.persistentGrants.map Prod.fst)
    (hfresh : (tokens.map (fun token => Updater.encodeHex token.1) ++
      s.persistentGrants.map Prod.fst).Nodup)
    (hbound : tokens.length + s.persistentGrants.length ≤ maxPersistentGrants)
    (htext : (pathText (pathBytes (place ++ [name]))).isSome = true)
    (hsame : ∀ entry ∈ s.persistentGrants, entry.2.path = pathBytes (place ++ [name])) :
    ∃ after, grantAll [[103]] (tokens.map (selectedAs (place ++ [name]))) s = some after ∧
      after.persistentGrants.length = tokens.length + s.persistentGrants.length ∧
      ∀ entry ∈ after.persistentGrants, entry.2.path = pathBytes (place ++ [name]) := by
  induction tokens generalizing s with
  | nil => exact ⟨s, rfl, (Nat.zero_add _).symm, hsame⟩
  | cons token rest ih =>
      rw [List.map_cons, List.cons_append, List.nodup_cons, List.mem_append, not_or] at hfresh
      rw [List.length_cons] at hbound
      have htexts : ∀ entry ∈ (Updater.encodeHex token.1, ⟨pathBytes (place ++ [name]), .read⟩) ::
          s.persistentGrants, (pathText entry.2.path).isSome = true := by
        intro entry hentry
        obtain rfl | hentry := List.mem_cons.mp hentry
        · exact htext
        · rw [hsame entry hentry]
          exact htext
      obtain ⟨reference, after, grant, hstep, hlock, hgrants, hentries⟩ := grant_again hname hlocks
        (by rw [hids]; exact hfresh.1.2) hfresh.1.2 (by omega) htexts
      obtain ⟨final, hfinal, hlength, hfound⟩ := ih (hlock.trans hlocks)
        (by rw [hgrants, hentries, List.map_cons, List.map_cons, hids])
        (by
          rw [hentries, List.map_cons, List.nodup_middle, List.nodup_cons, List.mem_append, not_or]
          exact hfresh)
        (by rw [hentries, List.length_cons]; omega)
        (by
          intro entry hentry
          rw [hentries] at hentry
          obtain rfl | hentry := List.mem_cons.mp hentry
          · rfl
          · exact hsame entry hentry)
      refine ⟨final, ?_, ?_, hfound⟩
      · exact (grant_all_granted hstep).trans hfinal
      · rw [hlength, hentries, List.length_cons, List.length_cons]
        omega

/-- Fifteen directories below each other, with names of 255 control characters. -/
def longPlace : Location := List.replicate 15 (List.replicate 255 1)

/-- The path of a file there, which is 4096 bytes long. -/
def longText : String :=
  String.ofList ((List.replicate 16 (List.replicate 255 '\x01')).flatMap fun name => '/' :: name)

theorem path_bytes_flat (first : OsString) (rest : Location) :
    pathBytes (first :: rest) = (first :: rest).flatMap fun name => 47 :: name := by
  unfold pathBytes
  induction rest generalizing first with
  | nil => rw [joinNames, List.intercalate_singleton, List.flatMap_singleton]
  | cons second rest ih => rw [join_names_cons, List.flatMap_cons, ← ih second]; rfl

theorem long_path : pathBytes (longPlace ++ [List.replicate 255 1]) = osString longText := by
  have hname : ('/' :: List.replicate 255 '\x01').flatMap String.utf8EncodeChar =
      47 :: List.replicate 255 1 := by decide +kernel
  have hnames : longPlace ++ [List.replicate 255 1] = List.replicate 16 (List.replicate 255 1) :=
    List.replicate_succ'.symm
  have hbytes : osString longText =
      (List.replicate 16 (List.replicate 255 '\x01')).flatMap fun name =>
        ('/' :: name).flatMap String.utf8EncodeChar :=
    (os_string_of_list _).trans List.flatMap_assoc
  have hflat : pathBytes (List.replicate 16 (List.replicate 255 1)) =
      (List.replicate 16 (List.replicate 255 1)).flatMap fun name => 47 :: name :=
    path_bytes_flat _ (List.replicate 15 _)
  calc pathBytes (longPlace ++ [List.replicate 255 1])
      = pathBytes (List.replicate 16 (List.replicate 255 1)) := congrArg pathBytes hnames
    _ = (List.replicate 16 (List.replicate 255 1)).flatMap fun name => 47 :: name := hflat
    _ = (List.replicate 16 (47 :: List.replicate 255 1)).flatten := List.flatMap_replicate
    _ = (List.replicate 16
          (('/' :: List.replicate 255 '\x01').flatMap String.utf8EncodeChar)).flatten := by
        rw [hname]
    _ = (List.replicate 16 (List.replicate 255 '\x01')).flatMap fun name =>
          ('/' :: name).flatMap String.utf8EncodeChar := List.flatMap_replicate.symm
    _ = osString longText := hbytes.symm

theorem long_escaped : escapedSize longText = 24496 := by
  refine (congrArg (fun chars => (chars.map escapedChar).sum) String.toList_ofList).trans ?_
  decide +kernel

/-- The store grows with every entry. -/
theorem store_size_le {grants : PersistentGrants} {path : OsString} {text : String}
    (htext : pathText path = some text) (hsame : ∀ entry ∈ grants, entry.2.path = path) :
    grants.length * escapedSize text ≤ storeSize grants := by
  have hsum : grants.length * escapedSize text ≤ (grants.map entrySize).sum := by
    induction grants with
    | nil => exact Nat.le_of_eq (Nat.zero_mul _)
    | cons entry rest ih =>
        have hrest := ih fun other hother => hsame other (List.mem_cons_of_mem _ hother)
        have hentry : escapedSize text ≤ entrySize entry := by
          unfold entrySize
          rw [hsame entry List.mem_cons_self, htext, Option.getD_some]
          omega
        rw [List.length_cons, List.map_cons, List.sum_cons, Nat.succ_mul]
        omega
  unfold storeSize
  omega

/-- Forty-three ids. -/
def manyTokens : List Token :=
  (List.range 43).map fun n => ⟨List.replicate 32 (UInt8.ofNat n), token_length _⟩

end PamDesktop.Native
