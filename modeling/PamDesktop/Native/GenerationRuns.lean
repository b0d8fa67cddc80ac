import PamDesktop.Native.Generations
import PamDesktop.Native.StoreRuns

/-!
# Runs of several generations

Every step of a call keeps what holds of the generations, if it is admitted, one lemma for each
function of `Generations`. `grants_durable` is about runs of such steps: no grant is lost and no
half-written store is seen.
-/

namespace PamDesktop.Native

open Foundations Protocol

namespace Generations

variable {initial : Option (List UInt8)} {s s' : Generations} {current : PersistentGrants}
  {services : Services} {index : Nat} {call call' : GrantCall}

/-! ## Steps -/

/-- A call goes on without the lock. -/
theorem Sound.idle_step (hs : s.Sound initial current) (hcalling : s.calls[index]? = some call)
    (hfound : s.services[call.services]? = some services) (call' : GrantCall)
    (hsame : call'.services = call.services) (hgranted : call'.granted = call.granted)
    (hidle : call'.phase.persists = false)
    (hphase : s.PhaseOk current services call'.phase) (grants : List (List (String × FileGrant))) :
    ({ s.put index call' with grants := grants } : Generations).Sound initial current := by
  have hchange : Change s { s.put index call' with grants := grants } current current index call
      call' services services :=
    { calling := hcalling
      found := hfound
      calls := rfl
      maps := (set_same hfound).symm
      same := hsame
      known := fun _ h => h
      lock := .inl rfl
      files := .inl ⟨rfl, rfl⟩
      current := .inl ⟨rfl, rfl⟩
      persists := fun h => by cases hidle.symm.trans h
      opened := fun h => absurd (closed_of_idle hidle) h }
  have hservices := hs.services services (List.mem_of_getElem? hfound)
  refine hs.change index call services hchange
    ⟨hs.files.store, hs.files.temporary, hs.files.contents⟩
    ⟨hservices.version, hservices.keepable, hservices.current⟩ ⟨?_, services, ?_, ?_⟩
  · rw [hgranted]
    exact (hs.calls call (List.mem_of_getElem? hcalling)).granted
  · rw [hsame]
    exact hfound
  · exact hphase.idle hidle

theorem Sound.answer (hs : s.Sound initial current) (hcalling : s.calls[index]? = some call)
    (hfound : s.services[call.services]? = some services) (result : Except NativeError Unit) :
    (s.put index (call.answer result)).Sound initial current :=
  hs.idle_step hcalling hfound (call.answer result) rfl rfl rfl .answered s.grants

theorem Sound.select (hs : s.Sound initial current) (hcalling : s.calls[index]? = some call)
    (hfound : s.services[call.services]? = some services) :
    (s.select index call).Sound initial current := by
  unfold Generations.select
  split
  · exact hs.answer hcalling hfound _
  · rename_i selection rest hremaining
    split
    · exact hs.answer hcalling hfound _
    · cases hrandom : selection.turn.random with
      | error error => exact hs.answer hcalling hfound _
      | ok token =>
          exact hs.idle_step hcalling hfound { call with
            remaining := rest, phase := .created (Updater.encodeHex token.1) selection }
            rfl rfl rfl .created _

theorem not_locked (h : s.locked call.services = false) :
    ∀ other ∈ s.calls, ¬ (other.services = call.services ∧ other.phase.persists = true) := by
  intro other hother hbusy
  unfold locked at h
  rw [List.any_eq_false] at h
  refine h other hother ?_
  rw [hbusy.1, hbusy.2, beq_self_eq_true]
  rfl

theorem Keepable.insert {grants : PersistentGrants} (h : Keepable grants) (token : Token)
    (path : Location) (access : FileAccess) :
    Keepable (insertGrant (Updater.encodeHex token.1) ⟨pathBytes path, access⟩ grants) := by
  refine ⟨insert_grant_distinct h.distinct, fun entry hentry => ?_⟩
  obtain rfl | hentry := List.mem_cons.mp hentry
  · obtain ⟨hsize, hhex⟩ := hex_id_valid token
    unfold validEntry
    rw [hsize, hhex]
    rfl
  · exact h.valid entry (List.mem_filter.mp hentry).1

theorem Keepable.remove {grants : PersistentGrants} (h : Keepable grants) (id : String) :
    Keepable (removeGrant id grants) :=
  ⟨h.distinct.sublist (List.filter_sublist.map Prod.fst),
    fun entry hentry => h.valid entry (List.mem_filter.mp hentry).1⟩

/-- A call gets the lock and puts its entry into the map. -/
theorem Sound.enter {token : Token} {selection : Selection} (hs : s.Sound initial current)
    (hcalling : s.calls[index]? = some call) (hfound : s.services[call.services]? = some services)
    (hfresh : Updater.encodeHex token.1 ∉ services.persistentGrants.map Prod.fst)
    (h : s.enter index call services (Updater.encodeHex token.1) selection = some s') :
    s'.Sound initial current := by
  unfold Generations.enter at h
  split at h
  · cases h
    exact hs.answer hcalling hfound _
  · rename_i canonical hcanonical
    split at h
    · cases h
    · rename_i hlocked
      rw [Bool.not_eq_true] at hlocked
      cases h
      have hservices := hs.services services (List.mem_of_getElem? hfound)
      have hkept : ∀ entry ∈ services.persistentGrants, entry ∈
          insertGrant (Updater.encodeHex token.1) ⟨pathBytes canonical, call.access⟩
            services.persistentGrants := by
        intro entry hentry
        refine List.mem_cons_of_mem _ (List.mem_filter.mpr ⟨hentry, decide_eq_true ?_⟩)
        intro heq
        exact hfresh (List.mem_map.mpr ⟨entry, hentry, heq⟩)
      refine hs.change index call services
        ⟨hcalling, hfound, rfl, rfl, rfl, fun _ h => h, .inr ?_, .inl ⟨rfl, rfl⟩,
          .inl ⟨rfl, rfl⟩, fun _ => .inr (not_locked hlocked), fun h => absurd rfl h⟩
        ⟨hs.files.store, hs.files.temporary, hs.files.contents⟩
        ⟨hservices.version, hservices.keepable.insert token canonical call.access, ?_⟩
        ⟨(hs.calls call (List.mem_of_getElem? hcalling)).granted, _,
          List.getElem?_set_self (List.getElem?_eq_some_iff.mp hfound).1,
          .persisting List.mem_cons_self ?_ .checking⟩
      · intro j other _ hother hsame
        cases hbusy : other.phase.persists with
        | false => rfl
        | true =>
            exact absurd ⟨hsame, hbusy⟩ (not_locked hlocked other (List.mem_of_getElem? hother))
      · exact fun hversion entry hentry => hkept entry (hservices.current hversion entry hentry)
      · intro hversion hmem
        obtain ⟨entry, hentry, heq⟩ := List.mem_map.mp hmem
        exact hfresh (List.mem_map.mpr ⟨entry, hservices.current hversion entry hentry, heq⟩)

/-- What is known of a call with the lock. -/
structure Locked (initial : Option (List UInt8)) (s : Generations) (current : PersistentGrants)
    (index : Nat) (call : GrantCall) (services : Services) (id : String) (entry : PersistentGrant)
    (step : Persisting) : Prop where
  sound : s.Sound initial current
  calling : s.calls[index]? = some call
  found : s.services[call.services]? = some services
  phase : call.phase = .persisting id entry step
  entry : (id, entry) ∈ services.persistentGrants
  fresh : services.version = s.version → id ∉ current.map Prod.fst
  step : s.StepOk services step

variable {id : String} {entry : PersistentGrant} {step : Persisting}

theorem Locked.waiting (h : Locked initial s current index call services id entry step) :
    ∀ j other, j ≠ index → s.calls[j]? = some other → other.services = call.services →
      other.phase.persists = false :=
  fun _ _ hj hother hsame => h.sound.exclusive.waiting h.calling (by rw [h.phase]; rfl) hj hother
    hsame

theorem Locked.fail (h : Locked initial s current index call services id entry step)
    (error : NativeError) : (s.fail index call services id error).Sound initial current := by
  have hs := h.sound
  have hservices := hs.services services (List.mem_of_getElem? h.found)
  refine hs.change index call services
    ⟨h.calling, h.found, rfl, rfl, rfl, fun _ h => h, .inr h.waiting, .inl ⟨rfl, rfl⟩,
      .inl ⟨rfl, rfl⟩, nofun, fun h => absurd rfl h⟩
    ⟨hs.files.store, hs.files.temporary, hs.files.contents⟩
    ⟨hservices.version, hservices.keepable.remove id, fun hversion other hother => ?_⟩
    ⟨(hs.calls call (List.mem_of_getElem? h.calling)).granted, _,
      List.getElem?_set_self (List.getElem?_eq_some_iff.mp h.found).1, .answered⟩
  refine List.mem_filter.mpr ⟨hservices.current hversion other hother, decide_eq_true ?_⟩
  intro heq
  exact h.fresh hversion (List.mem_map.mpr ⟨other, hother, heq⟩)

/-- A step of a call with the lock that leaves the maps and the store as they are. -/
theorem Locked.step_on {step' : Persisting}
    (h : Locked initial s current index call services id entry step)
    (hservices : s'.services = s.services)
    (hcalls : s'.calls = s.calls.set index { call with phase := .persisting id entry step' })
    (hversion : s'.version = s.version) (hknown : ∀ grants ∈ s.encoded, grants ∈ s'.encoded)
    (hothers : (s'.temporary = s.temporary ∧ s'.inodes = s.inodes) ∨
      ∀ j other, j ≠ index → s.calls[j]? = some other → other.phase.inode = none)
    (hopened : (GrantPhase.persisting id entry step').inode ≠ none → call.phase.inode ≠ none ∨
      ∀ other ∈ s.calls, ¬ other.phase.inode ≠ none)
    (hfiles : s'.FilesOk initial current) (hstep : s'.StepOk services step') :
    s'.Sound initial current := by
  have hs := h.sound
  have hok := hs.services services (List.mem_of_getElem? h.found)
  refine hs.change index call services
    ⟨h.calling, h.found, hcalls, hservices.trans (set_same h.found).symm, rfl, hknown, .inl rfl,
      hothers, .inl ⟨hversion, rfl⟩, fun _ => .inl (by rw [h.phase]; rfl), hopened⟩
    hfiles ⟨hversion ▸ hok.version, hok.keepable, fun heq => hok.current (heq.trans hversion)⟩
    ⟨(hs.calls call (List.mem_of_getElem? h.calling)).granted, services, ?_,
      .persisting h.entry (fun heq => h.fresh (heq.trans hversion)) hstep⟩
  rw [hservices]
  exact h.found

/-- The files are as they were, and more may be encoded. -/
theorem FilesOk.frame (h : s.FilesOk initial current) (hinodes : s'.inodes = s.inodes)
    (hstore : s'.store = s.store) (htemporary : s'.temporary = s.temporary)
    (hversion : s'.version = s.version) (hknown : ∀ grants ∈ s.encoded, grants ∈ s'.encoded) :
    s'.FilesOk initial current := by
  have hcontents : s'.contents = s.contents := by
    rw [Generations.contents, Generations.contents, hstore, hinodes]
  refine ⟨?_, ?_, ?_⟩
  · rw [hstore, hinodes]
    exact h.store
  · rw [htemporary, hstore, hinodes]
    exact h.temporary
  · rw [hcontents, hversion]
    obtain hinitial | ⟨hstorable, hcurrent, hbytes⟩ := h.contents
    · exact .inl hinitial
    · exact .inr ⟨hstorable, hknown current hcurrent, hbytes⟩

theorem Locked.encode (h : Locked initial s current index call services id entry .checking)
    (answer : Except IoError Nat) :
    (s.encode index call services id entry answer).Sound initial current := by
  unfold Generations.encode
  split
  · exact h.fail _
  · rename_i hbound
    split
    · exact h.fail _
    · split
      · exact h.fail _
      · rename_i bytes hbytes
        obtain ⟨htexts, heq⟩ := encode_grants_ok hbytes
        have hkeepable := (h.sound.services services (List.mem_of_getElem? h.found)).keepable
        have hstorable : Storable services.persistentGrants :=
          ⟨hkeepable.distinct, Nat.le_of_not_lt hbound, hkeepable.valid, htexts⟩
        have hknown : ∀ grants ∈ s.encoded, grants ∈ services.persistentGrants :: s.encoded :=
          fun _ hmem => List.mem_cons_of_mem _ hmem
        exact h.step_on rfl rfl rfl hknown (.inl ⟨rfl, rfl⟩) (fun hopen => absurd rfl hopen)
          (h.sound.files.frame rfl rfl rfl rfl hknown)
          (.opening ⟨heq, hstorable, List.mem_cons_self⟩)

/-- The temporary file is not the store. -/
theorem FilesOk.contents_set (h : s.FilesOk initial current) {inode : Nat}
    (htemporary : s.temporary = some inode) (inodes : List (List UInt8))
    (hother : ∀ j, j ≠ inode → inodes[j]? = s.inodes[j]?) :
    (s.store.bind fun inode => inodes[inode]?) = s.contents := by
  unfold Generations.contents
  cases hstore : s.store with
  | none => rfl
  | some place =>
      refine hother place fun heq => (h.temporary inode htemporary).2 ?_
      rw [hstore, heq]

/-- The temporary file is written, and nothing else. -/
theorem FilesOk.write (h : s.FilesOk initial current) {inode : Nat}
    (htemporary : s.temporary = some inode) {inodes : List (List UInt8)}
    (hlength : inodes.length = s.inodes.length)
    (hother : ∀ j, j ≠ inode → inodes[j]? = s.inodes[j]?) (hinodes : s'.inodes = inodes)
    (hstore : s'.store = s.store) (hsame : s'.temporary = s.temporary)
    (hversion : s'.version = s.version) (hencoded : s'.encoded = s.encoded) :
    s'.FilesOk initial current := by
  have hcontents : s'.contents = s.contents := by
    rw [Generations.contents, hstore, hinodes]
    exact h.contents_set htemporary inodes hother
  refine ⟨?_, ?_, ?_⟩
  · rw [hstore, hinodes, hlength]
    exact h.store
  · rw [hsame, hstore, hinodes, hlength]
    exact h.temporary
  · rw [hcontents, hversion, hencoded]
    exact h.contents

theorem Locked.openTemporary {bytes : List UInt8}
    (h : Locked initial s current index call services id entry (.opening bytes))
    (answer : Except IoError Nat)
    (hadmitted : answer.isOk = true → ∀ other ∈ s.calls, other.phase.inode = none) :
    (s.openTemporary index call services id entry bytes answer).Sound initial current := by
  cases answer with
  | error error => exact h.fail _
  | ok count =>
      have hclosed := hadmitted rfl
      have hencoded : s.Encoded services bytes := by
        cases h.step with
        | opening hencoded => exact hencoded
      have hothers : ∀ j other, j ≠ index → s.calls[j]? = some other → other.phase.inode = none :=
        fun j other _ hother => hclosed other (List.mem_of_getElem? hother)
      have hfirst : ∀ other ∈ s.calls, ¬ other.phase.inode ≠ none :=
        fun other hother hopen => hopen (hclosed other hother)
      unfold Generations.openTemporary
      dsimp only
      split
      · rename_i inode htemporary
        have hlt := (h.sound.files.temporary inode htemporary).1
        refine h.step_on rfl rfl rfl (fun _ hmem => hmem) (.inr hothers) (fun _ => .inr hfirst)
          (h.sound.files.write htemporary (List.length_set ..)
            (fun j hj => List.getElem?_set_ne fun heq => hj heq.symm) rfl rfl rfl rfl rfl)
          (.writing ⟨hencoded.bytes, hencoded.storable, hencoded.known⟩ (Nat.zero_le _)
            ⟨htemporary, List.getElem?_set_self hlt⟩)
      · rename_i htemporary
        have hfiles := h.sound.files
        refine h.step_on rfl rfl rfl (fun _ hmem => hmem) (.inr hothers) (fun _ => .inr hfirst)
          ⟨?_, ?_, ?_⟩
          (.writing ⟨hencoded.bytes, hencoded.storable, hencoded.known⟩ (Nat.zero_le _)
            ⟨rfl, List.getElem?_concat_length⟩)
        · intro inode hstore
          have hlt := hfiles.store inode hstore
          show inode < (s.inodes ++ [[]]).length
          rw [List.length_append]
          omega
        · intro inode hinode
          obtain rfl : s.inodes.length = inode := Option.some.inj hinode
          refine ⟨by show _ < (s.inodes ++ [[]]).length; rw [List.length_append]; exact
            Nat.lt_succ_self _, fun hstore => ?_⟩
          exact Nat.lt_irrefl _ (hfiles.store _ hstore)
        · have hcontents : (s.store.bind fun inode => (s.inodes ++ [[]])[inode]?) = s.contents := by
            unfold Generations.contents
            cases hstore : s.store with
            | none => rfl
            | some inode => exact List.getElem?_append_left (hfiles.store inode hstore)
          obtain ⟨hversion, hnone, hinitial⟩ | ⟨hstorable, hknown, hbytes⟩ := hfiles.contents
          · exact .inl ⟨hversion, hnone, hcontents.trans hinitial⟩
          · exact .inr ⟨hstorable, hknown, hcontents.trans hbytes⟩

/-- What is written behind what is there. -/
theorem overwrite_end {bytes : List UInt8} {offset : Nat} (hoffset : offset ≤ bytes.length)
    (count : Nat) : overwrite (bytes.take offset) offset ((bytes.drop offset).take count) =
      bytes.take (offset + count) := by
  have hlength : (bytes.take offset).length = offset := List.length_take_of_le hoffset
  have hrest : (bytes.take offset).drop (offset + ((bytes.drop offset).take count).length) = [] :=
    List.drop_eq_nil_of_le (by rw [hlength]; exact Nat.le_add_right _ _)
  rw [overwrite, List.take_take, Nat.min_self, hlength, Nat.sub_self, List.replicate_zero,
    List.append_nil, hrest, List.append_nil, List.take_add]

theorem Locked.writeTemporary {bytes : List UInt8} {inode offset : Nat}
    (h : Locked initial s current index call services id entry (.writing bytes inode offset))
    (answer : Except IoError Nat)
    (hnext : s.writeTemporary index call services id entry bytes inode offset answer = some s') :
    s'.Sound initial current := by
  obtain ⟨hencoded, hoffset, hprepared⟩ : s.Encoded services bytes ∧ offset ≤ bytes.length ∧
      s.Prepared inode (bytes.take offset) := by
    cases h.step with
    | writing hencoded hoffset hprepared => exact ⟨hencoded, hoffset, hprepared⟩
  have hopen : call.phase.inode ≠ none := by
    rw [h.phase]
    nofun
  have hothers : ∀ j other, j ≠ index → s.calls[j]? = some other → other.phase.inode = none :=
    fun j other hj hother => h.sound.exclusive.closed h.calling hopen hj hother
  cases answer with
  | error error =>
      cases hnext
      exact h.fail _
  | ok count =>
      unfold Generations.writeTemporary at hnext
      dsimp only at hnext
      split at hnext
      · split at hnext
        · cases hnext
          exact h.fail _
        · split at hnext
          · cases hnext
          · rename_i hcount
            cases hnext
            refine h.step_on rfl rfl rfl (fun _ hmem => hmem) (.inr hothers) (fun _ => .inl hopen)
              (h.sound.files.write hprepared.temporary (List.length_modify ..)
                (fun j hj => ?_) rfl rfl rfl rfl rfl)
              (.writing ⟨hencoded.bytes, hencoded.storable, hencoded.known⟩
                (Nat.le_of_not_lt hcount) ⟨hprepared.temporary, ?_⟩)
            · exact List.getElem?_modify_ne _ _ fun heq => hj heq.symm
            · rw [← overwrite_end hoffset, List.getElem?_modify_eq, hprepared.contents]
              rfl
      · rename_i hend
        cases hnext
        have hall : bytes.take offset = bytes := List.take_of_length_le (Nat.le_of_not_lt hend)
        refine h.step_on rfl rfl rfl (fun _ hmem => hmem) (.inl ⟨rfl, rfl⟩) (fun _ => .inl hopen)
          (h.sound.files.frame rfl rfl rfl rfl fun _ hmem => hmem)
          (.publishing ⟨hencoded.bytes, hencoded.storable, hencoded.known⟩
            ⟨hprepared.temporary, hprepared.contents.trans (congrArg some hall)⟩)

/-- The generation that has the newest map puts it into the store. -/
theorem Locked.publish {bytes : List UInt8} {inode : Nat}
    (h : Locked initial s current index call services id entry (.publishing bytes inode))
    (answer : Except IoError Nat)
    (hadmitted : answer.isOk = true → services.version = s.version) :
    ∃ next, (s.publish index call services id entry answer).Sound initial next := by
  cases answer with
  | error error => exact ⟨current, h.fail _⟩
  | ok count =>
      have hs := h.sound
      have hok := hs.services services (List.mem_of_getElem? h.found)
      obtain ⟨hencoded, hprepared⟩ : s.Encoded services bytes ∧ s.Prepared inode bytes := by
        cases h.step with
        | publishing hencoded hprepared => exact ⟨hencoded, hprepared⟩
      have hopen : call.phase.inode ≠ none := by
        rw [h.phase]
        nofun
      have hothers : ∀ j other, j ≠ index → s.calls[j]? = some other →
          other.phase.inode = none :=
        fun j other hj hother => hs.exclusive.closed h.calling hopen hj hother
      have hnewer : ∀ entry ∈ current, entry ∈ services.persistentGrants :=
        hok.current (hadmitted rfl)
      have hgranted : ∀ granted ∈ (id, entry) :: call.granted,
          granted ∈ services.persistentGrants := by
        intro granted hmem
        obtain rfl | hmem := List.mem_cons.mp hmem
        · exact h.entry
        · exact hnewer granted
            ((hs.calls call (List.mem_of_getElem? h.calling)).granted granted hmem)
      unfold Generations.publish
      dsimp only
      split
      · exact ⟨current, h.fail _⟩
      · rename_i place htemporary
        obtain rfl : inode = place := Option.some.inj (hprepared.temporary.symm.trans htemporary)
        refine ⟨services.persistentGrants, hs.change index call services
          ⟨h.calling, h.found, rfl, rfl, rfl, fun _ hmem => hmem, .inr h.waiting, .inr hothers,
            .inr ⟨Nat.lt_succ_self _, hnewer⟩, nofun, fun hopen => absurd rfl hopen⟩
          ⟨?_, nofun, .inr ⟨hencoded.storable, hencoded.known, ?_⟩⟩
          ⟨Nat.le_refl _, hok.keepable, fun _ _ hmem => hmem⟩
          ⟨hgranted, _, List.getElem?_set_self (List.getElem?_eq_some_iff.mp h.found).1,
            .selecting⟩⟩
        · intro place hplace
          obtain rfl := Option.some.inj hplace
          exact (hs.files.temporary inode htemporary).1
        · rw [← hencoded.bytes]
          exact hprepared.contents

/-- A step of a call keeps the grants, if it is admitted. -/
theorem Sound.run (hs : s.Sound initial current) {answer : Except IoError Nat}
    (hcalling : s.calls[index]? = some call) (hfound : s.services[call.services]? = some services)
    (hadmitted : s.StepAdmitted services answer call.phase)
    (h : s.run index call services answer = some s') : ∃ next, s'.Sound initial next := by
  obtain ⟨found, hsame, hphase⟩ := (hs.calls call (List.mem_of_getElem? hcalling)).phase
  obtain rfl : services = found := Option.some.inj (hfound.symm.trans hsame)
  unfold Generations.run at h
  generalize hcurrent : call.phase = phase at h hphase hadmitted
  cases hphase with
  | selecting =>
      cases h
      exact ⟨current, hs.select hcalling hfound⟩
  | created => exact ⟨current, hs.enter hcalling hfound hadmitted h⟩
  | answered => cases h
  | @persisting id entry step hentry hfresh hstep =>
      have hlocked : Locked initial s current index call services id entry step :=
        ⟨hs, hcalling, hfound, hcurrent, hentry, hfresh, hstep⟩
      cases step with
      | checking =>
          cases h
          exact ⟨current, hlocked.encode answer⟩
      | opening bytes =>
          cases h
          exact ⟨current, hlocked.openTemporary answer hadmitted⟩
      | writing bytes inode offset => exact ⟨current, hlocked.writeTemporary answer h⟩
      | publishing bytes inode =>
          cases h
          exact hlocked.publish answer hadmitted

/-- A store that is loaded is not too long. -/
theorem loaded_size {reader : JsonReader} {contents : List UInt8}
    {loaded : {entries // Sorted PersistentGrant entries}}
    (h : loadPersistentGrants reader (some ⟨false, contents⟩) = .ok loaded) :
    contents.length ≤ maxStoreBytes := by
  unfold loadPersistentGrants at h
  dsimp only at h
  split at h
  · cases h
  · rename_i hsize
    rw [Bool.false_or, decide_eq_true_eq] at hsize
    exact Nat.le_of_not_lt hsize

/-- What is prepared is what the store has. -/
theorem Sound.prepare {reader : JsonReader} {files : Files} (hs : s.Sound initial current)
    (hparse : ∀ grants ∈ s.encoded,
      Parses reader.parse (grantsJson grants).bytes (grantsJson grants)) :
    (s.prepare reader files).Sound initial current := by
  unfold Generations.prepare
  split
  · exact hs
  · rename_i prepared hprepared
    obtain ⟨loaded, hloaded, rfl⟩ := prepare_grants_ok hprepared
    have hstorable := loaded_storable hloaded
    have hcurrent : ∀ entry ∈ current, entry ∈ loaded.1 := by
      obtain ⟨-, hnone, -⟩ | ⟨hcurrent, hknown, hbytes⟩ := hs.files.contents
      · rw [hnone]
        nofun
      · rw [hbytes] at hloaded
        have hsize := loaded_size hloaded
        rw [store_size] at hsize
        obtain ⟨found, hfound, hperm⟩ :=
          (load_persisted_iff hcurrent (hparse current hknown)).mpr hsize
        obtain rfl := Except.ok.inj (hloaded.symm.trans hfound)
        exact fun entry hentry => hperm.mem_iff.mpr hentry
    refine ⟨⟨hs.files.store, hs.files.temporary, hs.files.contents⟩,
      ⟨hs.exclusive.locked, hs.exclusive.opened⟩, fun services hservices => ?_,
      fun call hcall => ?_⟩
    · obtain hservices | hservices := List.mem_append.mp hservices
      · have hok := hs.services services hservices
        exact ⟨hok.version, hok.keepable, hok.current⟩
      · obtain rfl := List.mem_singleton.mp hservices
        exact ⟨Nat.le_refl _, ⟨hstorable.distinct, hstorable.valid⟩, fun _ => hcurrent⟩
    · obtain ⟨hgranted, services, hfound, hphase⟩ := hs.calls call hcall
      refine ⟨hgranted, services, ?_, hphase.frame (fun h => ⟨h, rfl⟩) (fun _ hmem => hmem)
        (.inl ⟨rfl, rfl⟩)⟩
      exact (List.getElem?_append_left (List.getElem?_eq_some_iff.mp hfound).1).trans hfound

/-- A new call. -/
theorem Sound.grantPaths (hs : s.Sound initial current) {key : Nat} (hkey : key < s.services.length)
    (access : FileAccess) (selections : List Selection) :
    ({ s with calls := s.calls ++ [⟨key, access, selections, [], .selecting⟩] } :
      Generations).Sound initial current := by
  refine ⟨⟨hs.files.store, hs.files.temporary, hs.files.contents⟩,
    ⟨fun other => (hs.exclusive.locked other).append fun hbusy => ?_,
      hs.exclusive.opened.append fun hopen => hopen rfl⟩, fun services hservices => ?_,
    fun call hcall => ?_⟩
  · cases hbusy.2
  · have hok := hs.services services hservices
    exact ⟨hok.version, hok.keepable, hok.current⟩
  · obtain hcall | hcall := List.mem_append.mp hcall
    · obtain ⟨hgranted, services, hfound, hphase⟩ := hs.calls call hcall
      exact ⟨hgranted, services, hfound, hphase.frame (fun h => ⟨h, rfl⟩) (fun _ hmem => hmem)
        (.inl ⟨rfl, rfl⟩)⟩
    · obtain rfl := List.mem_singleton.mp hcall
      exact ⟨nofun, _, List.getElem?_eq_getElem hkey, .selecting⟩

/-- An admitted step keeps the grants. -/
theorem sound_step {reader : JsonReader} {event : GenerationEvent} (hs : s.Sound initial current)
    (hadmitted : s.Admitted event) (hparse : ∀ grants ∈ s.encoded,
      Parses reader.parse (grantsJson grants).bytes (grantsJson grants))
    (h : (generations reader).next s event = some s') : ∃ next, s'.Sound initial next := by
  cases event with
  | prepare files =>
      cases h
      exact ⟨current, hs.prepare hparse⟩
  | grantPaths services access selections =>
      unfold generations at h
      dsimp only at h
      split at h
      · rename_i hkey
        cases h
        exact ⟨current, hs.grantPaths hkey access selections⟩
      · cases h
  | run index answer =>
      unfold generations at h
      dsimp only at h
      split at h
      · cases h
      · rename_i call hcalling
        split at h
        · cases h
        · rename_i services hfound
          exact hs.run hcalling hfound (hadmitted call hcalling services hfound) h

theorem select_encoded : (s.select index call).encoded = s.encoded := by
  unfold Generations.select
  split
  · rfl
  · split
    · rfl
    · split
      · rfl
      · rfl

theorem enter_encoded {selection : Selection}
    (h : s.enter index call services id selection = some s') : s'.encoded = s.encoded := by
  unfold Generations.enter at h
  split at h
  · cases h
    rfl
  · split at h
    · cases h
    · cases h
      rfl

/-- No map that was encoded is forgotten. -/
theorem persist_encoded {answer : Except IoError Nat}
    (h : s.persist index call services id entry answer step = some s') :
    ∀ grants ∈ s.encoded, grants ∈ s'.encoded := by
  unfold Generations.persist at h
  split at h
  · cases h
    unfold Generations.encode
    split
    · exact fun _ hmem => hmem
    · split
      · exact fun _ hmem => hmem
      · split
        · exact fun _ hmem => hmem
        · exact fun _ hmem => List.mem_cons_of_mem _ hmem
  · cases h
    unfold Generations.openTemporary
    split
    · exact fun _ hmem => hmem
    · split
      · exact fun _ hmem => hmem
      · exact fun _ hmem => hmem
  · unfold Generations.writeTemporary at h
    split at h
    · cases h
      exact fun _ hmem => hmem
    · split at h
      · split at h
        · cases h
          exact fun _ hmem => hmem
        · split at h
          · cases h
          · cases h
            exact fun _ hmem => hmem
      · cases h
        exact fun _ hmem => hmem
  · cases h
    unfold Generations.publish
    split
    · exact fun _ hmem => hmem
    · split
      · exact fun _ hmem => hmem
      · exact fun _ hmem => hmem

theorem encoded_step {reader : JsonReader} {event : GenerationEvent}
    (h : (generations reader).next s event = some s') :
    ∀ grants ∈ s.encoded, grants ∈ s'.encoded := by
  cases event with
  | prepare files =>
      cases h
      unfold Generations.prepare
      split
      · exact fun _ hmem => hmem
      · exact fun _ hmem => hmem
  | grantPaths services access selections =>
      unfold generations at h
      dsimp only at h
      split at h
      · cases h
        exact fun _ hmem => hmem
      · cases h
  | run index answer =>
      unfold generations at h
      dsimp only at h
      split at h
      · cases h
      · split at h
        · cases h
        · unfold Generations.run at h
          split at h
          · cases h
            rw [select_encoded]
            exact fun _ hmem => hmem
          · rw [enter_encoded h]
            exact fun _ hmem => hmem
          · exact persist_encoded h
          · cases h

theorem no_generations_contents (store temporary : Option (List UInt8)) :
    (noGenerations store temporary).contents = store := by
  cases store with
  | none => rfl
  | some contents => rfl

theorem no_generations_sound (store temporary : Option (List UInt8)) :
    (noGenerations store temporary).Sound store [] := by
  have hcalls : ∀ i : Nat, (noGenerations store temporary).calls[i]? = none :=
    fun _ => List.getElem?_nil
  refine ⟨⟨?_, ?_, .inl ⟨rfl, rfl, no_generations_contents store temporary⟩⟩,
    ⟨fun _ i _ _ _ h => ?_, fun i _ _ _ h => ?_⟩, ?_, ?_⟩
  · intro inode hstore
    obtain ⟨contents, hcontents, rfl⟩ := Option.map_eq_some_iff.mp hstore
    show 0 < (store.toList ++ temporary.toList).length
    rw [hcontents]
    exact Nat.succ_pos _
  · intro inode htemporary
    obtain ⟨contents, hcontents, rfl⟩ := Option.map_eq_some_iff.mp htemporary
    constructor
    · show store.toList.length < (store.toList ++ temporary.toList).length
      rw [hcontents, List.length_append]
      exact Nat.lt_succ_self _
    · intro hstore
      obtain ⟨other, hother, hplace⟩ := Option.map_eq_some_iff.mp hstore
      rw [hother] at hplace
      cases hplace
  · cases (hcalls i).symm.trans h
  · cases (hcalls i).symm.trans h
  · intro services hservices
    cases hservices
  · intro call hcall
    cases hcall

end Generations

/-- Runs in which no grant is lost and no half-written store is seen. -/
theorem grants_durable (reader : JsonReader) (store temporary : Option (List UInt8))
    (events : List GenerationEvent) (final : Generations)
    (hplay : (generations reader).play (noGenerations store temporary) events = some final)
    (hparse : ∀ grants ∈ final.encoded,
      Parses reader.parse (grantsJson grants).bytes (grantsJson grants))
    (hadmitted : (generations reader).Throughout Generations.Admitted
      (noGenerations store temporary) events) :
    (generations reader).Always (Generations.Durable store) (noGenerations store temporary)
      events := by
  have hknown : (generations reader).Always (fun s => ∀ grants ∈ s.encoded,
      Parses reader.parse (grantsJson grants).bytes (grantsJson grants))
      (noGenerations store temporary) events :=
    System.always_of_last hplay hparse fun s event s' hnext hparsed grants hgrants =>
      hparsed grants (Generations.encoded_step hnext grants hgrants)
  have hsteps := hadmitted.and (hknown.admits fun s event h => h)
  have hsound : (generations reader).Always (fun s => ∃ current, s.Sound store current)
      (noGenerations store temporary) events :=
    hsteps.always ⟨[], Generations.no_generations_sound store temporary⟩
      fun s event s' hs hstep hnext => by
        obtain ⟨current, hcurrent⟩ := hs
        exact Generations.sound_step hcurrent hstep.1 hstep.2 hnext
  exact hsound.mono fun s hs => by
    obtain ⟨current, hcurrent⟩ := hs
    exact hcurrent.durable

/-! ## Two generations that do not know of each other -/

/-- A call that grants one path, with a write of so many bytes. -/
def grantEvents (services call count : Nat) (selection : Selection) : List GenerationEvent :=
  [.grantPaths services .read [selection], .run call (.ok 0), .run call (.ok 0),
    .run call (.ok 0), .run call (.ok 0), .run call (.ok count), .run call (.ok 0),
    .run call (.ok 0), .run call (.ok 0)]

/-- `/b` is selected. -/
def shortSelection : Selection := (selectedAs [[98]] ⟨List.replicate 32 1, token_length 1⟩).1

/-- `/aaaaa` is selected. -/
def longSelection : Selection :=
  (selectedAs [List.replicate 5 97] ⟨List.replicate 32 2, token_length 2⟩).1

def shortEntry : String × PersistentGrant :=
  (Updater.encodeHex (List.replicate 32 1), ⟨[47, 98], .read⟩)

def longEntry : String × PersistentGrant :=
  (Updater.encodeHex (List.replicate 32 2), ⟨47 :: List.replicate 5 97, .read⟩)

/-- Both generations are prepared before either grants anything. -/
def lostEvents : List GenerationEvent :=
  [.prepare anyFile, .prepare anyFile] ++ grantEvents 0 0 97 longSelection ++
    grantEvents 1 1 93 shortSelection

/-- The second generation is prepared after the first has granted a path. -/
def reloadEvents : List GenerationEvent :=
  [.prepare anyFile] ++ grantEvents 0 0 93 shortSelection ++ [.prepare anyFile] ++
    grantEvents 1 1 189 longSelection

/-- The call has succeeded. -/
def GrantPhase.succeeded : GrantPhase → Bool
  | .answered (.ok ()) => true
  | _ => false

/-- What the calls have granted, and how long the store is. -/
def Generations.summary (s : Generations) : List (PersistentGrants × Bool) × Option Nat :=
  (s.calls.map fun call => (call.granted, call.phase.succeeded), s.contents.map List.length)

theorem lost_summary : ((generations (readerOf [])).play (noGenerations none none) lostEvents).map
    Generations.summary = some ([([longEntry], true), ([shortEntry], true)], some 93) := by
  decide +kernel

theorem succeeded_iff {phase : GrantPhase} :
    phase.succeeded = true ↔ phase = .answered (.ok ()) := by
  constructor
  · intro h
    unfold GrantPhase.succeeded at h
    split at h
    · rfl
    · cases h
  · intro h
    rw [h]
    rfl

theorem entry_size_le {grants : PersistentGrants} {entry : String × PersistentGrant}
    (h : entry ∈ grants) : entrySize entry ≤ storeSize grants := by
  have hsum : entrySize entry ≤ (grants.map entrySize).sum := by
    induction grants with
    | nil => cases h
    | cons first rest ih =>
        rw [List.map_cons, List.sum_cons]
        obtain rfl | h := List.mem_cons.mp h
        · omega
        · have hrest := ih h
          omega
  unfold storeSize
  omega

/-- Both calls succeed, and the grant of the first is lost. -/
theorem older_grant_lost : ∃ final,
    (generations (readerOf [])).play (noGenerations none none) lostEvents = some final ∧
      (∀ call ∈ final.calls, call.phase = .answered (.ok ())) ∧
      ¬ (generations (readerOf [])).Always (Generations.Durable none) (noGenerations none none)
        lostEvents := by
  obtain ⟨final, hplay, hsummary⟩ := Option.map_eq_some_iff.mp lost_summary
  obtain ⟨hcalls, hlength⟩ := Prod.mk.inj hsummary
  have hanswered : ∀ call ∈ final.calls, call.phase = .answered (.ok ()) := by
    intro call hcall
    have hmem : (call.granted, call.phase.succeeded) ∈
        [([longEntry], true), ([shortEntry], true)] := by
      rw [← hcalls]
      exact List.mem_map_of_mem hcall
    refine succeeded_iff.mp ?_
    obtain hmem | hmem := List.mem_cons.mp hmem
    · exact (Prod.mk.inj hmem).2
    · exact (Prod.mk.inj (List.mem_singleton.mp hmem)).2
  refine ⟨final, hplay, hanswered, fun halways => ?_⟩
  have hended : ∀ call ∈ final.calls, call.phase.Ended := by
    intro call hcall
    rw [hanswered call hcall]
    trivial
  have hlong : ([longEntry], true) ∈ final.calls.map fun call =>
      (call.granted, call.phase.succeeded) := by
    rw [hcalls]
    exact List.mem_cons_self
  obtain ⟨call, hcall, hgranted⟩ := List.mem_map.mp hlong
  have hentry : longEntry ∈ call.granted := by
    rw [(Prod.mk.inj hgranted).1]
    exact List.mem_cons_self
  obtain ⟨grants, hcontents, hmem⟩ :=
    (halways.last hplay).granted hended call hcall (hanswered call hcall) longEntry hentry
  rw [hcontents, Option.map_some, Option.some.injEq, store_size] at hlength
  have hsize : entrySize longEntry = 95 := by decide +kernel
  have hle := entry_size_le hmem
  omega

/-- A parser that knows the two maps of the reload. -/
def reloadReader : JsonReader where
  parse bytes :=
    (parserOf (grantsJson [shortEntry]).bytes (grantsJson [shortEntry]) bytes).or
      (parserOf (grantsJson [longEntry, shortEntry]).bytes (grantsJson [longEntry, shortEntry])
        bytes)
  error _ := "expected value"

theorem reload_parse (bytes : List UInt8) : reloadReader.parse bytes =
    (parserOf (grantsJson [shortEntry]).bytes (grantsJson [shortEntry]) bytes).or
      (parserOf (grantsJson [longEntry, shortEntry]).bytes (grantsJson [longEntry, shortEntry])
        bytes) := rfl

theorem reload_encoded : ((generations reloadReader).play (noGenerations none none)
    reloadEvents).map Generations.encoded = some [[longEntry, shortEntry], [shortEntry]] := by
  decide +kernel

/-- Grants of two generations are kept if the second has loaded those of the first. -/
theorem reloaded_grants_durable : (generations reloadReader).Always (Generations.Durable none)
    (noGenerations none none) reloadEvents := by
  obtain ⟨final, hplay, hencoded⟩ := Option.map_eq_some_iff.mp reload_encoded
  refine grants_durable reloadReader none none reloadEvents final hplay (fun grants hgrants => ?_)
    (by decide +kernel)
  rw [hencoded] at hgrants
  obtain rfl | hgrants := List.mem_cons.mp hgrants
  · have hother : (grantsJson [longEntry, shortEntry]).bytes ≠ (grantsJson [shortEntry]).bytes := by
      decide +kernel
    intro _
    rw [reload_parse, parserOf, if_neg hother, parserOf, if_pos rfl, Option.none_or]
  · obtain rfl := List.mem_singleton.mp hgrants
    intro _
    rw [reload_parse, parserOf, if_pos rfl, Option.some_or]

end PamDesktop.Native
