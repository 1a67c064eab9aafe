import Ucentral.Plat.Apply
import Ucentral.Lib.Json
import Ucentral.Lib.Parser

/-! How the lists of RADIUS servers and of DAC clients are read into the cache.

    Both are read by two calls. The first is given no room and learns the number of hosts; the second
    fills an array of that size, and the switch may have changed in between. The two functions are
    copies of each other, down to the cleanup, which drops the RADIUS list in both. -/

namespace Ucentral.Plat.HostKeys
open CJson Parse

/-! ### The getters -/

/-- A pointer to an array of keys, none if it is null, and the size beside it. -/
structure KeysArr where
  arr : Option (List String)
  size : ℕ
  deriving DecidableEq

def KeysArr.null : KeysArr := ⟨none, 0⟩

/-- The keys that a reader of the cache finds. -/
def KeysArr.keys (k : KeysArr) : List String := (k.arr.getD []).take k.size

def gnmaRadiusCfgHostnameStrMaxLen : ℕ := 64

/-- The loop over the hosts: `strcpy` into the `n`th slot. None if there is no string, or it is written
    past its slot or past the array. -/
def storeHosts (addr : String) : Option (List String) → ℕ → List Json → Option (ℤ × KeysArr)
  | arr, n, [] => some (0, ⟨arr, n⟩)
  | arr, n, host :: hosts =>
    match getItem (some host) addr with
    | none => some (-1, ⟨arr, n⟩)
    | some a =>
      match arr, getStringValue (some a) with
      | some slots, some s =>
        if n < slots.length ∧ fits (some s) (some gnmaRadiusCfgHostnameStrMaxLen) = true then
          storeHosts addr (some (slots.set n s)) (n + 1) hosts
        else none
      | _, _ => none

/-- Two getters differ in where the hosts are in the reply and in what their address is called. The
    number of hosts is counted in 16 bits. -/
def hostsListGet (hosts : Ptr → Ptr) (addr : String) (reply : Ptr) (k : KeysArr) :
    Option (ℤ × KeysArr) :=
  let arrLen := (children (hosts reply)).length % 65536
  if reply.isNone then some (-1, k)
  else if k.size < arrLen then some (-2, { k with size := arrLen })
  else storeHosts addr (k.arr.map fun slots => List.replicate k.size "" ++ slots.drop k.size) 0
    (children (hosts reply))

def radiusServers (reply : Ptr) : Ptr := getItem (getItem reply "openconfig-system:servers") "server"

def dacClients (reply : Ptr) : Ptr := getItem reply "openconfig-das:das-client-config-table-entry"

/-- `gnma_radius_hosts_list_get`, from the reply to the get on. -/
def gnmaRadiusHostsListGet : Ptr → KeysArr → Option (ℤ × KeysArr) :=
  hostsListGet radiusServers "address"

/-- `gnma_ieee8021x_das_dac_hosts_list_get`. -/
def gnmaIeee8021xDasDacHostsListGet : Ptr → KeysArr → Option (ℤ × KeysArr) :=
  hostsListGet dacClients "clientaddress"

/-! ### The two lists of the cache -/

inductive Owner
  | radius | ieee8021x
  deriving DecidableEq

/-- `hosts_keys_arr` of `radius` and `das_dac_keys_arr` of `ieee8021x`, with their sizes. -/
abbrev Caches := Owner → KeysArr

/-- Read the list of `own` by two calls; `alloc` tells whether `calloc` succeeds, and `freed` is the
    list that the label `err` drops. -/
def listInit (get : Ptr → KeysArr → Option (ℤ × KeysArr)) (own freed : Owner) (s : Caches)
    (alloc : Bool) (first second : Ptr) : Option (ℤ × Caches) :=
  let err (k : KeysArr) : Caches := Function.update (Function.update s own k) freed .null
  (get first .null).bind fun (ret, k) =>
    if ret ≠ 0 ∧ ret ≠ -2 then some (ret, Function.update s own { k with size := 0 })
    else if k.size = 0 then some (0, Function.update s own k)
    else if !alloc then some (-12, err k)
    else
      (get second ⟨some (List.replicate k.size ""), k.size⟩).map fun (ret, k) =>
        if ret ≠ 0 then (ret, err k) else (0, Function.update s own k)

/-- `plat_state_radius_init`. -/
def platStateRadiusInit : Caches → Bool → Ptr → Ptr → Option (ℤ × Caches) :=
  listInit gnmaRadiusHostsListGet .radius .radius

/-- `plat_state_ieee8021x_dac_list_init`; what it drops when it fails is the RADIUS list. -/
def platStateIeee8021xDacListInit : Caches → Bool → Ptr → Ptr → Option (ℤ × Caches) :=
  listInit gnmaIeee8021xDasDacHostsListGet .ieee8021x .radius

/-! ### What a getter leaves -/

def addressOf (addr : String) (host : Json) : String :=
  (getStringValue (getItem (some host) addr)).getD ""

/-- Every host has an address. -/
def Complete (addr : String) (hosts : List Json) : Prop :=
  ∀ host ∈ hosts, (getItem (some host) addr).isSome = true

theorem complete_cons {addr : String} {host : Json} {hosts : List Json} :
    Complete addr (host :: hosts) ↔
      (getItem (some host) addr).isSome = true ∧ Complete addr hosts :=
  List.forall_mem_cons

theorem take_set_succ (slots : List String) {n : ℕ} (h : n < slots.length) (s : String) :
    (slots.set n s).take (n + 1) = slots.take n ++ [s] := by
  rw [List.take_succ_eq_append_getElem (by simpa using h), List.getElem_set_self,
    List.take_set_of_le le_rfl]

/-- Either all hosts are stored from the `n`th slot on, or one without an address ends the loop. -/
theorem storeHosts_cases (addr : String) : ∀ (hosts : List Json) (arr : Option (List String)) (n : ℕ)
    {ret : ℤ} {k : KeysArr}, storeHosts addr arr n hosts = some (ret, k) →
    k.arr.isSome = arr.isSome ∧
      (ret = 0 ∧ Complete addr hosts ∧ k.size = n + hosts.length ∧
          k.keys = (arr.getD []).take n ++ hosts.map (addressOf addr) ∨
        ret = -1 ∧ ¬ Complete addr hosts)
  | [], arr, n, ret, k, h => by
      cases h
      exact ⟨rfl, Or.inl ⟨rfl, by simp [Complete], rfl, by simp [KeysArr.keys]⟩⟩
  | host :: hosts, arr, n, ret, k, h => by
      rw [storeHosts] at h
      cases ha : getItem (some host) addr with
      | none =>
        rw [ha] at h
        cases h
        refine ⟨rfl, Or.inr ⟨rfl, fun hall => ?_⟩⟩
        have hsome := (complete_cons.mp hall).1
        rw [ha] at hsome
        cases hsome
      | some a =>
        rw [ha] at h
        cases arr with
        | none => exact absurd h (by simp)
        | some slots =>
          cases hs : getStringValue (some a) with
          | none => simp [hs] at h
          | some s =>
            simp only [hs] at h
            split_ifs at h with hroom
            obtain ⟨hsome, hrest⟩ := storeHosts_cases addr hosts _ _ h
            have hhost : addressOf addr host = s := by rw [addressOf, ha, hs]; rfl
            refine ⟨hsome, hrest.imp ?_ ?_⟩
            · rintro ⟨hret, hall, hsize, hkeys⟩
              refine ⟨hret, complete_cons.mpr ⟨by rw [ha]; rfl, hall⟩, ?_, ?_⟩
              · rw [hsize, List.length_cons]
                omega
              · rw [hkeys, Option.getD_some, take_set_succ slots hroom.1, List.map_cons, hhost,
                  List.append_assoc]
                rfl
            · rintro ⟨hret, hnot⟩
              exact ⟨hret, fun hall => hnot (complete_cons.mp hall).2⟩

section
variable {hosts : Ptr → Ptr} {addr : String}

/-- How a call ends: no reply, no room, or the loop over the hosts. -/
theorem hostsListGet_cases {reply : Ptr} {k k' : KeysArr} {ret : ℤ}
    (h : hostsListGet hosts addr reply k = some (ret, k')) :
    (reply = none ∧ ret = -1 ∧ k' = k) ∨
    (reply.isSome ∧ k.size < (children (hosts reply)).length % 65536 ∧ ret = -2 ∧
      k' = { k with size := (children (hosts reply)).length % 65536 }) ∨
    (reply.isSome ∧ (children (hosts reply)).length % 65536 ≤ k.size ∧ k'.arr.isSome = k.arr.isSome ∧
      (ret = 0 ∧ Complete addr (children (hosts reply)) ∧
          k'.size = (children (hosts reply)).length ∧
          k'.keys = (children (hosts reply)).map (addressOf addr) ∨
        ret = -1 ∧ ¬ Complete addr (children (hosts reply)))) := by
  unfold hostsListGet at h
  dsimp only at h
  split_ifs at h with hnone hroom
  · cases h
    exact Or.inl ⟨by simpa using hnone, rfl, rfl⟩
  · cases h
    exact Or.inr (Or.inl ⟨by simpa [Option.isSome_iff_ne_none] using hnone, hroom, rfl, rfl⟩)
  · obtain ⟨hsome, hcases⟩ := storeHosts_cases addr _ _ _ h
    refine Or.inr (Or.inr ⟨by simpa [Option.isSome_iff_ne_none] using hnone, by omega, ?_, ?_⟩)
    · rw [hsome, Option.isSome_map]
    · simpa using hcases

/-- The number of hosts that the first call learns. -/
def found (hosts : Ptr → Ptr) (reply : Ptr) : ℕ :=
  if reply.isNone then 0 else (children (hosts reply)).length % 65536

/-- A getter that is given no room. -/
theorem first_cases {reply : Ptr} {k : KeysArr} {ret : ℤ}
    (h : hostsListGet hosts addr reply .null = some (ret, k)) :
    k.arr = none ∧
      (found hosts reply = 0 ∧
          (ret = -1 ∨ ret = 0 ∧ k.size = 0 ∧ children (hosts reply) = [] ∧ reply.isSome) ∨
        ret = -2 ∧ found hosts reply ≠ 0 ∧ k.size = found hosts reply) := by
  unfold found
  rcases hostsListGet_cases h with ⟨rfl, rfl, rfl⟩ | ⟨hsome, hroom, rfl, rfl⟩ | ⟨hsome, hroom, harr, hend⟩
  · exact ⟨rfl, Or.inl ⟨rfl, Or.inl rfl⟩⟩
  · have hisn : reply.isNone = false := by simpa using hsome
    rw [if_neg (by simp [hisn])]
    exact ⟨rfl, Or.inr ⟨rfl, Nat.ne_zero_of_lt hroom, rfl⟩⟩
  · have hisn : reply.isNone = false := by simpa using hsome
    rw [if_neg (by simp [hisn])]
    have hnull : k.arr = none := by simpa [KeysArr.null] using harr
    have hzero : (children (hosts reply)).length % 65536 = 0 := Nat.le_zero.mp hroom
    refine ⟨hnull, Or.inl ⟨hzero, ?_⟩⟩
    rcases hend with ⟨hret, -, hsize, hkeys⟩ | ⟨hret, -⟩
    · -- a host that is stored would need an array
      have hkeys' : k.keys = [] := by rw [KeysArr.keys, hnull, Option.getD_none, List.take_nil]
      rw [hkeys', eq_comm, List.map_eq_nil_iff] at hkeys
      exact Or.inr ⟨hret, by rw [hsize, hkeys]; rfl, hkeys, hsome⟩
    · exact Or.inl hret

end

/-! ### The two functions -/

/-- What is asked of reading a list: `listed` are the hosts that the last answer names. -/
structure Clean (own : Owner) (listed : List String) (s s' : Caches) (ret : ℤ) : Prop where
  null_iff : (s' own).arr.isSome ↔ (s' own).size ≠ 0
  error : ret ≠ 0 → (s' own).arr = none ∧ (s' own).size = 0
  success : ret = 0 → (s' own).size = listed.length ∧ (s' own).keys = listed
  frame : ∀ other, other ≠ own → s' other = s other

/-- The hosts of the last answer that is asked for. -/
def listedBy (hosts : Ptr → Ptr) (addr : String) (first second : Ptr) : List String :=
  (children (hosts (if found hosts first = 0 then first else second))).map (addressOf addr)

/-- The second answer is a list that fits the array. -/
def Filled (hosts : Ptr → Ptr) (addr : String) (first second : Ptr) : Prop :=
  second.isSome ∧ (children (hosts second)).length % 65536 ≤ found hosts first ∧
    Complete addr (children (hosts second))

section
variable {hosts : Ptr → Ptr} {addr : String} {own freed : Owner} {s s' : Caches} {alloc : Bool}
variable {first second : Ptr} {ret : ℤ}

/-- A getter that is given room for what the first call has found. -/
theorem second_cases {k k' : KeysArr} (h : hostsListGet hosts addr second k = some (ret, k'))
    (harr : k.arr.isSome) (hsize : k.size = found hosts first) :
    k'.arr.isSome ∧
      (ret ≠ 0 ∧ ¬ Filled hosts addr first second ∨
        ret = 0 ∧ Filled hosts addr first second ∧ k'.size = (children (hosts second)).length ∧
          k'.keys = (children (hosts second)).map (addressOf addr)) := by
  rcases hostsListGet_cases h with ⟨rfl, rfl, rfl⟩ | ⟨-, hroom, rfl, rfl⟩ |
    ⟨hsome, hroom, hkept, ⟨rfl, hall, hlen, hkeys⟩ | ⟨rfl, hnot⟩⟩
  · exact ⟨harr, Or.inl ⟨by decide, fun hfilled => absurd hfilled.1 (by simp)⟩⟩
  · rw [hsize] at hroom
    exact ⟨harr, Or.inl ⟨by decide, fun hfilled => absurd hfilled.2.1 (by omega)⟩⟩
  · exact ⟨hkept.trans harr, Or.inr ⟨rfl, ⟨hsome, hroom.trans hsize.le, hall⟩, hlen, hkeys⟩⟩
  · exact ⟨hkept.trans harr, Or.inl ⟨by decide, fun hfilled => hnot hfilled.2.2⟩⟩

/-- The ways through the two calls. -/
theorem listInit_cases
    (h : listInit (hostsListGet hosts addr) own freed s alloc first second = some (ret, s')) :
    (found hosts first = 0 ∧ s' = Function.update s own .null ∧
      (ret ≠ 0 ∨ ret = 0 ∧ children (hosts first) = [])) ∨
    (found hosts first ≠ 0 ∧ ret ≠ 0 ∧ ¬ (alloc = true ∧ Filled hosts addr first second) ∧
      ∃ k, (k.arr.isSome ∨ k.size ≠ 0) ∧
        s' = Function.update (Function.update s own k) freed .null) ∨
    (found hosts first ≠ 0 ∧ ret = 0 ∧ alloc = true ∧ Filled hosts addr first second ∧
      ∃ k, k.arr.isSome ∧ k.size = (children (hosts second)).length ∧
        k.keys = (children (hosts second)).map (addressOf addr) ∧ s' = Function.update s own k) := by
  unfold listInit at h
  obtain ⟨⟨ret₁, k⟩, hfirst, h⟩ := Option.bind_eq_some_iff.mp h
  dsimp only at h
  obtain ⟨harr, ⟨hzero, hret⟩ | ⟨hret, hfound, hsize⟩⟩ := first_cases hfirst
  · -- the first call fails, or finds no hosts
    refine Or.inl ⟨hzero, ?_⟩
    rcases hret with rfl | ⟨rfl, hsize, hnil, -⟩
    · rw [if_pos (by decide)] at h
      cases h
      exact ⟨by rw [harr]; rfl, Or.inl (by decide)⟩
    · rw [if_neg (by decide), if_pos hsize] at h
      cases h
      exact ⟨by rw [show k = .null from by cases k; cases harr; cases hsize; rfl],
        Or.inr ⟨rfl, hnil⟩⟩
  · subst hret
    rw [if_neg (by decide), if_neg (by omega)] at h
    split_ifs at h with halloc
    · cases h
      refine Or.inr (Or.inl ⟨hfound, by decide, fun hok => ?_, k, Or.inr (by omega), rfl⟩)
      rw [hok.1] at halloc
      exact absurd halloc (by decide)
    obtain ⟨⟨ret₂, k₂⟩, hsecond, h⟩ := Option.map_eq_some_iff.mp h
    dsimp only at h
    obtain ⟨harr₂, ⟨hret₂, hnot⟩ | ⟨rfl, hfilled, hlen, hkeys⟩⟩ := second_cases hsecond rfl hsize
    · rw [if_pos hret₂] at h
      cases h
      exact Or.inr (Or.inl ⟨hfound, hret₂, fun hok => hnot hok.2, k₂, Or.inl harr₂, rfl⟩)
    · cases h
      exact Or.inr (Or.inr ⟨hfound, rfl, by simpa using halloc, hfilled, k₂, harr₂, hlen, hkeys, rfl⟩)

/-- A list that is dropped as a whole. -/
theorem clean_null {listed : List String} (h : ret = 0 → listed = []) :
    Clean own listed s (Function.update s own .null) ret where
  null_iff := by simp [KeysArr.null]
  error _ := by simp [KeysArr.null]
  success hret := by simp [h hret, KeysArr.null, KeysArr.keys]
  frame other hne := Function.update_of_ne hne _ _

/-- A list that is filled: clean unless it has come to be empty. -/
theorem clean_filled_iff {listed : List String} {k : KeysArr} (harr : k.arr.isSome)
    (hsize : k.size = listed.length) (hkeys : k.keys = listed) :
    Clean own listed s (Function.update s own k) 0 ↔ listed ≠ [] := by
  have hlen : k.size ≠ 0 ↔ listed ≠ [] := by rw [hsize, Ne, List.length_eq_zero_iff]
  constructor
  · intro h
    have := h.null_iff
    rw [Function.update_self] at this
    exact hlen.mp (this.mp harr)
  · intro hne
    constructor
    · rw [Function.update_self]
      exact ⟨fun _ => hlen.mpr hne, fun _ => harr⟩
    · exact fun h => absurd rfl h
    · rw [Function.update_self]
      exact fun _ => ⟨hsize, hkeys⟩
    · exact fun other hne => Function.update_of_ne hne _ _

/-- Where the list that is dropped is the one that is read. -/
theorem clean_iff_of_eq
    (h : listInit (hostsListGet hosts addr) own own s alloc first second = some (ret, s')) :
    Clean own (listedBy hosts addr first second) s s' ret ↔
      ¬ (found hosts first ≠ 0 ∧ alloc = true ∧ second.isSome ∧ children (hosts second) = []) := by
  rcases listInit_cases h with ⟨hzero, rfl, hend⟩ | ⟨hfound, hret, hnot, k, -, rfl⟩ |
    ⟨hfound, rfl, halloc, hfilled, k, harr, hsize, hkeys, rfl⟩
  · refine ⟨fun _ hbad => hbad.1 hzero, fun _ => clean_null fun hret => ?_⟩
    rw [listedBy, if_pos hzero, (hend.resolve_left (fun h => h hret)).2]
    rfl
  · rw [Function.update_idem]
    refine ⟨fun _ hbad => hnot ⟨hbad.2.1, hbad.2.2.1, ?_, ?_⟩, fun _ => clean_null fun h => absurd h hret⟩
    · rw [hbad.2.2.2]
      exact Nat.zero_le _
    · rw [hbad.2.2.2]
      exact List.forall_mem_nil _
  · have hlisted : listedBy hosts addr first second = (children (hosts second)).map (addressOf addr) := by
      rw [listedBy, if_neg hfound]
    rw [clean_filled_iff harr (by rw [hsize, hlisted, List.length_map]) (by rw [hkeys, hlisted]),
      hlisted, Ne, List.map_eq_nil_iff]
    exact ⟨fun hne hbad => hne hbad.2.2.2, fun hno hnil => hno ⟨hfound, halloc, hfilled.1, hnil⟩⟩

/-- Where it is another one. -/
theorem clean_iff_of_ne (hne : freed ≠ own)
    (h : listInit (hostsListGet hosts addr) own freed s alloc first second = some (ret, s')) :
    Clean own (listedBy hosts addr first second) s s' ret ↔
      (found hosts first = 0 ∨
        alloc = true ∧ Filled hosts addr first second ∧ children (hosts second) ≠ []) := by
  rcases listInit_cases h with ⟨hzero, rfl, hend⟩ | ⟨hfound, hret, hnot, k, hk, rfl⟩ |
    ⟨hfound, rfl, halloc, hfilled, k, harr, hsize, hkeys, rfl⟩
  · refine ⟨fun _ => Or.inl hzero, fun _ => clean_null fun hret => ?_⟩
    rw [listedBy, if_pos hzero, (hend.resolve_left (fun h => h hret)).2]
    rfl
  · constructor
    · intro hclean
      have herr := hclean.error hret
      rw [Function.update_of_ne hne.symm, Function.update_self] at herr
      rcases hk with hk | hk
      · rw [herr.1] at hk
        exact absurd hk (by decide)
      · exact absurd herr.2 hk
    · rintro (hzero | ⟨halloc, hfilled, -⟩)
      · exact absurd hzero hfound
      · exact absurd ⟨halloc, hfilled⟩ hnot
  · have hlisted : listedBy hosts addr first second = (children (hosts second)).map (addressOf addr) := by
      rw [listedBy, if_neg hfound]
    rw [clean_filled_iff harr (by rw [hsize, hlisted, List.length_map]) (by rw [hkeys, hlisted]),
      hlisted, Ne, List.map_eq_nil_iff]
    exact ⟨fun hnil => Or.inr ⟨halloc, hfilled, hnil⟩,
      fun h => (h.resolve_left hfound).2.2⟩

end

/-! ### The functions that a configuration is applied with -/

section
variable {δ : Type} (dv : Dev δ)

/-- An answer as the switch of `Dev` gives it: none, or the address of each host. -/
def Answers (hosts : Ptr → Ptr) (addr : String) (reply : Ptr) : Option (List String) → Prop
  | none => reply = none
  | some names => reply.isSome ∧ Complete addr (children (hosts reply)) ∧
      (children (hosts reply)).map (addressOf addr) = names ∧ names.length < 65536

variable {hosts : Ptr → Ptr} {addr : String} {reply : Ptr}

theorem Answers.length {names : List String} (h : Answers hosts addr reply (some names)) :
    (children (hosts reply)).length % 65536 = names.length := by
  obtain ⟨-, -, hmap, hlt⟩ := h
  rw [← List.length_map (addressOf addr), hmap, Nat.mod_eq_of_lt hlt]

theorem first_of_nil (h : Answers hosts addr reply (some [])) :
    hostsListGet hosts addr reply .null = some (0, .null) := by
  have hnil : children (hosts reply) = [] := List.map_eq_nil_iff.mp h.2.2.1
  unfold hostsListGet
  dsimp only
  rw [hnil, if_neg (by simp [Option.isSome_iff_ne_none.mp h.1])]
  rfl

theorem first_of_cons {name : String} {names : List String}
    (h : Answers hosts addr reply (some (name :: names))) :
    hostsListGet hosts addr reply .null = some (-2, ⟨none, (name :: names).length⟩) := by
  unfold hostsListGet
  dsimp only
  rw [h.length, if_neg (by simp [Option.isSome_iff_ne_none.mp h.1]), if_pos (by simp [KeysArr.null])]
  rfl

theorem second_of_some {names : List String} {n : ℕ} {k : KeysArr} {ret : ℤ}
    (h : Answers hosts addr reply (some names))
    (hget : hostsListGet hosts addr reply ⟨some (List.replicate n ""), n⟩ = some (ret, k)) :
    n < names.length ∧ ret = -2 ∧ k.keys = List.replicate n "" ∨
      ¬ n < names.length ∧ ret = 0 ∧ k.keys = names := by
  rcases hostsListGet_cases hget with ⟨rfl, -⟩ | ⟨-, hroom, hret, rfl⟩ |
    ⟨-, hroom, -, ⟨hret, -, -, hkeys⟩ | ⟨-, hnot⟩⟩
  · exact absurd h.1 (by decide)
  · rw [h.length] at hroom ⊢
    refine Or.inl ⟨hroom, hret, ?_⟩
    rw [KeysArr.keys, Option.getD_some, List.take_replicate, Nat.min_eq_right (le_of_lt hroom)]
  · rw [h.length] at hroom
    exact Or.inr ⟨Nat.not_lt.mpr hroom, hret, hkeys.trans h.2.2.1⟩
  · exact absurd h.2.1 hnot

/-- The keys of the cache are those that the two arrays hold. -/
structure Agrees (cache : PlatState) (s : Caches) : Prop where
  radius : cache.radiusKeys = (s .radius).keys
  dac : cache.dacKeys = (s .ieee8021x).keys

variable {s s' : Caches} {first second : Ptr} {ret : ℤ} {t : Effect.Traced (Env δ) (Op × Bool)}

/-- What two answers come to: the code, the keys in the list, and whether a list is dropped. -/
def answered : Option (List String) → Option (List String) → ℤ × List String × Bool
  | none, _ => (-1, [], false)
  | some [], _ => (0, [], false)
  | some (name :: names), none => (-1, List.replicate (name :: names).length "", true)
  | some (name :: names), some keys =>
    if (name :: names).length < keys.length then (-2, List.replicate (name :: names).length "", true)
    else (0, keys, false)

theorem answered_more {name : String} {names keys : List String}
    (h : (name :: names).length < keys.length) : answered (some (name :: names)) (some keys) =
      (-2, List.replicate (name :: names).length "", true) :=
  if_pos h

theorem answered_fits {name : String} {names keys : List String}
    (h : ¬ (name :: names).length < keys.length) :
    answered (some (name :: names)) (some keys) = (0, keys, false) :=
  if_neg h

theorem listInit_answered {own freed : Owner} {one two : Option (List String)}
    (hfirst : Answers hosts addr first one) (hsecond : Answers hosts addr second two)
    (h : listInit (hostsListGet hosts addr) own freed s true first second = some (ret, s')) :
    ∃ k, ret = (answered one two).1 ∧ k.keys = (answered one two).2.1 ∧
      s' = if (answered one two).2.2 then Function.update (Function.update s own k) freed .null
        else Function.update s own k := by
  unfold listInit at h
  rcases one with _ | _ | ⟨name, names⟩
  · rw [show first = none from hfirst] at h
    cases h
    exact ⟨.null, rfl, rfl, rfl⟩
  · rw [first_of_nil hfirst] at h
    cases h
    exact ⟨.null, rfl, rfl, rfl⟩
  · rw [first_of_cons hfirst] at h
    obtain ⟨⟨ret₂, k⟩, hget, h⟩ := Option.map_eq_some_iff.mp h
    cases two with
    | none =>
      rw [show second = none from hsecond] at hget
      cases hget
      cases h
      exact ⟨⟨some (List.replicate (name :: names).length ""), (name :: names).length⟩, rfl,
        List.take_of_length_le (le_of_eq List.length_replicate), rfl⟩
    | some keys =>
      rcases second_of_some hsecond hget with ⟨hlt, rfl, hkeys⟩ | ⟨hlt, rfl, hkeys⟩
      · cases h
        rw [answered_more hlt]
        exact ⟨k, rfl, hkeys, rfl⟩
      · cases h
        rw [answered_fits hlt]
        exact ⟨k, rfl, hkeys, rfl⟩

/-- The function of the apply does the same to the keys. -/
theorem platStateRadiusInit_agrees (hs : Agrees t.state.cache s)
    (hfirst : Answers radiusServers "address" first (dv.radiusHosts t.state.dev).1)
    (hsecond : Answers radiusServers "address" second
      (dv.radiusHosts (dv.radiusHosts t.state.dev).2).1)
    (h : platStateRadiusInit s true first second = some (ret, s')) :
    Effect.Prog.retCode (Plat.platStateRadiusInit dv t).1 = ret ∧
      Agrees (Plat.platStateRadiusInit dv t).2.state.cache s' := by
  obtain ⟨k, rfl, hkeys, rfl⟩ := listInit_answered hfirst hsecond h
  unfold Plat.platStateRadiusInit
  rw [Effect.Prog.bind_run_ok (modifyCache_run _ t), Effect.Prog.bind_run_ok (ask_run _ _)]
  dsimp only
  cases hone : (dv.radiusHosts t.state.dev).1 with
  | none =>
    rw [hone] at hkeys
    exact ⟨rfl, hkeys.symm, hs.dac⟩
  | some names =>
    rw [hone] at hkeys
    cases names with
    | nil => exact ⟨rfl, hkeys.symm, hs.dac⟩
    | cons name names =>
      dsimp only
      rw [Effect.Prog.bind_run_ok (ask_run _ _)]
      dsimp only
      cases htwo : (dv.radiusHosts (dv.radiusHosts t.state.dev).2).1 with
      | none => exact ⟨rfl, rfl, hs.dac⟩
      | some keys =>
        rw [htwo] at hkeys
        dsimp only
        by_cases hlt : (name :: names).length < keys.length
        · rw [if_pos hlt, answered_more hlt]
          exact ⟨rfl, rfl, hs.dac⟩
        · rw [answered_fits hlt] at hkeys ⊢
          rw [if_neg hlt]
          exact ⟨rfl, hkeys.symm, hs.dac⟩

theorem platStateIeee8021xDacListInit_agrees (hs : Agrees t.state.cache s)
    (hfirst : Answers dacClients "clientaddress" first (dv.dacHosts t.state.dev).1)
    (hsecond : Answers dacClients "clientaddress" second
      (dv.dacHosts (dv.dacHosts t.state.dev).2).1)
    (h : platStateIeee8021xDacListInit s true first second = some (ret, s')) :
    Effect.Prog.retCode (Plat.platStateIeee8021xDacListInit dv t).1 = ret ∧
      Agrees (Plat.platStateIeee8021xDacListInit dv t).2.state.cache s' := by
  obtain ⟨k, rfl, hkeys, rfl⟩ := listInit_answered hfirst hsecond h
  unfold Plat.platStateIeee8021xDacListInit
  rw [Effect.Prog.bind_run_ok (modifyCache_run _ t), Effect.Prog.bind_run_ok (ask_run _ _)]
  dsimp only
  cases hone : (dv.dacHosts t.state.dev).1 with
  | none =>
    rw [hone] at hkeys
    exact ⟨rfl, hs.radius, hkeys.symm⟩
  | some names =>
    rw [hone] at hkeys
    cases names with
    | nil => exact ⟨rfl, hs.radius, hkeys.symm⟩
    | cons name names =>
      dsimp only
      rw [Effect.Prog.bind_run_ok (ask_run _ _)]
      dsimp only
      cases htwo : (dv.dacHosts (dv.dacHosts t.state.dev).2).1 with
      | none =>
        rw [htwo] at hkeys
        exact ⟨rfl, rfl, hkeys.symm⟩
      | some keys =>
        rw [htwo] at hkeys
        dsimp only
        by_cases hlt : (name :: names).length < keys.length
        · rw [answered_more hlt] at hkeys ⊢
          rw [if_pos hlt]
          exact ⟨rfl, rfl, hkeys.symm⟩
        · rw [answered_fits hlt] at hkeys ⊢
          rw [if_neg hlt]
          exact ⟨rfl, hs.radius, hkeys.symm⟩

end

/-! ### Clean or not -/

/-- Each list is read cleanly unless: for the RADIUS servers, the second answer has no hosts left; for
    the DAC clients, the second call is not reached, or its answer is no list that fits, or empty. -/
theorem hostKeys_clean_iff (s s' : Caches) (alloc : Bool) (first second : Ptr) (ret : ℤ) :
    (platStateRadiusInit s alloc first second = some (ret, s') →
      (Clean .radius (listedBy radiusServers "address" first second) s s' ret ↔
        ¬ (found radiusServers first ≠ 0 ∧ alloc = true ∧ second.isSome ∧
          children (radiusServers second) = []))) ∧
    (platStateIeee8021xDacListInit s alloc first second = some (ret, s') →
      (Clean .ieee8021x (listedBy dacClients "clientaddress" first second) s s' ret ↔
        (found dacClients first = 0 ∨
          alloc = true ∧ Filled dacClients "clientaddress" first second ∧
            children (dacClients second) ≠ []))) :=
  ⟨fun h => clean_iff_of_eq h, fun h => clean_iff_of_ne (by decide) h⟩

/-! ### The answers change -/

/-- The DAC clients as the switch lists them. -/
def dacReply (names : List String) : Ptr :=
  some (.obj [("openconfig-das:das-client-config-table-entry",
    .arr (names.map fun n => .obj [("clientaddress", .str n)]))])

/-- One RADIUS server is cached, and the DAC list is empty. -/
def oneServer : Caches
  | .radius => ⟨some ["10.0.0.1"], 1⟩
  | .ieee8021x => .null

theorem hostKeys_clean_two : ∃ s',
    platStateIeee8021xDacListInit oneServer true (dacReply ["10.0.0.7", "10.0.0.8"])
      (dacReply ["10.0.0.9"]) = some (0, s') ∧
    Clean .ieee8021x ["10.0.0.9"] oneServer s' 0 := by
  refine ⟨_, rfl, ((hostKeys_clean_iff oneServer _ true (dacReply ["10.0.0.7", "10.0.0.8"])
    (dacReply ["10.0.0.9"]) 0).2 rfl).mpr (Or.inr ⟨rfl, ⟨rfl, by decide, ?_⟩, nofun⟩)⟩
  intro host hhost
  obtain rfl := List.mem_singleton.mp hhost
  rfl

/-- The second call finds two clients where there was one: an error is returned, the array stays with
    the size of the new list, and the RADIUS list is gone. -/
theorem dac_error_unclean : ∃ s',
    platStateIeee8021xDacListInit oneServer true (dacReply ["10.0.0.7"])
      (dacReply ["10.0.0.7", "10.0.0.8"]) = some (-2, s') ∧
    s' .ieee8021x = ⟨some [""], 2⟩ ∧ s' .radius = .null ∧ oneServer .radius ≠ .null ∧
    ¬ Clean .ieee8021x ["10.0.0.7", "10.0.0.8"] oneServer s' (-2) := by
  refine ⟨_, rfl, rfl, rfl, by decide, fun h => ?_⟩
  exact absurd (h.frame .radius (by decide)) (by decide)

end Ucentral.Plat.HostKeys
