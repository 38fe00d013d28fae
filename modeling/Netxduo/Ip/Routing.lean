import Mathlib.Data.List.Basic
import Mathlib.Order.Basic

/-! Where an IPv4 packet goes: the table of static routes and the search of an interface and a next hop. -/

namespace Netxduo.Ip.Routing

/-! ### The source -/

abbrev Address := BitVec 32

/-- `NX_INTERFACE`, as far as a route depends on it. --/
structure Interface where
  valid : Bool
  linkUp : Bool
  ipAddress : Address
  ipNetworkMask : Address
  ipNetwork : Address
  priority : Int
  deriving DecidableEq, Inhabited

/-- `NX_IP_ROUTING_ENTRY`, with the index of its interface. --/
structure RoutingEntry where
  destIp : Address
  netMask : Address
  nextHopAddress : Address
  entryIpInterface : Nat
  deriving DecidableEq

/-- `NX_MAX_PHYSICAL_INTERFACES`, whether there is a loopback interface behind them, and
    `NX_IP_ROUTING_TABLE_SIZE`. --/
structure Build where
  maxPhysicalInterfaces : Nat
  loopback : Bool
  routingTableSize : Nat

def Build.maxIpInterfaces (b : Build) : Nat := b.maxPhysicalInterfaces + b.loopback.toNat

def Build.isLoopback (b : Build) (i : Nat) : Bool := b.loopback && i == b.maxPhysicalInterfaces

/-- `NX_IP`: the interfaces, the first `nx_ip_routing_table_entry_count` slots of the routing table, the gateway. --/
structure Instance where
  interface : Nat → Interface
  routingTable : List RoutingEntry
  gatewayAddress : Address
  gatewayInterface : Option Nat

inductive Status
  | success
  | ipAddressError
  | overflow
  | notSuccessful
  | invalidInterface
  deriving DecidableEq

def Interface.onNetwork (interface : Interface) (address : Address) : Bool :=
  address &&& interface.ipNetworkMask == interface.ipNetwork

/-- The search of the table for the place of a new entry, and the place. There is none in a full table. --/
def addEntry (full : Bool) (new : RoutingEntry) : List RoutingEntry → Option (List RoutingEntry)
  | [] => if full then none else some [new]
  | e :: rest =>
    if e.destIp = new.destIp ∧ e.netMask = new.netMask then
      -- the entry keeps its interface, whatever interface the next hop is on
      some ({ e with nextHopAddress := new.nextHopAddress } :: rest)
    else if e.netMask ≤ new.netMask then if full then none else some (new :: e :: rest)
    else (addEntry full new rest).map (e :: ·)

/-- `_nx_ip_static_route_add` --/
def Instance.staticRouteAdd (b : Build) (ip : Instance) (network mask nextHop : Address) : Status × Instance :=
  match (List.range b.maxIpInterfaces).find?
      fun i => (ip.interface i).valid && (ip.interface i).onNetwork nextHop with
  | none => (.ipAddressError, ip)
  | some i =>
    match addEntry (ip.routingTable.length == b.routingTableSize) ⟨network &&& mask, mask, nextHop, i⟩
        ip.routingTable with
    | none => (.overflow, ip)
    | some table => (.success, { ip with routingTable := table })

def RoutingEntry.isFor (network mask : Address) (e : RoutingEntry) : Bool := e.destIp == network && e.netMask == mask

/-- `_nx_ip_static_route_delete` --/
def Instance.staticRouteDelete (ip : Instance) (network mask : Address) : Status × Instance :=
  if ip.routingTable.isEmpty then (.success, ip)
  else if ip.routingTable.any (RoutingEntry.isFor (network &&& mask) mask) then
    (.success, { ip with routingTable := ip.routingTable.eraseP (RoutingEntry.isFor (network &&& mask) mask) })
  else (.notSuccessful, ip)

/-- What `_nx_ip_interface_detach` does to the routes, the gateway and the interface. --/
def Instance.interfaceDetach (ip : Instance) (index : Nat) : Status × Instance :=
  if (ip.interface index).valid then
    (.success,
      { interface := Function.update ip.interface index ⟨false, false, 0, 0, 0, 0⟩
        routingTable := ip.routingTable.filter (·.entryIpInterface != index)
        gatewayAddress := if ip.gatewayInterface = some index then 0 else ip.gatewayAddress
        gatewayInterface := if ip.gatewayInterface = some index then none else ip.gatewayInterface })
  else (.invalidInterface, ip)

/-- Of the interface found so far and another one that will do, the one of the higher priority. --/
def Instance.better (ip : Instance) (found : Option Nat) (i : Nat) : Option Nat :=
  match found with
  | none => some i
  | some j => if (ip.interface j).priority < (ip.interface i).priority then some i else some j

/-- Of the interfaces in `range` that will do, the first of the highest priority. --/
def Instance.best (ip : Instance) (range : List Nat) (willDo : Nat → Bool) : Option Nat :=
  (range.filter willDo).foldl ip.better none

/-- `_nx_ip_gateway_address_set` --/
def Instance.gatewayAddressSet (b : Build) (ip : Instance) (address : Address) : Status × Instance :=
  match ip.best (List.range b.maxPhysicalInterfaces)
      fun i => (ip.interface i).valid && (ip.interface i).onNetwork address with
  | none => (.ipAddressError, ip)
  | some i => (.success, { ip with gatewayAddress := address, gatewayInterface := some i })

/-- `_nx_ip_gateway_address_clear` --/
def Instance.gatewayAddressClear (ip : Instance) : Instance :=
  { ip with gatewayAddress := 0, gatewayInterface := none }

/-! ### The search -/

/-- `NX_IP_CLASS_D_TYPE` under its mask, or `NX_IP_LIMITED_BROADCAST` --/
def toMany (destination : Address) : Bool := destination &&& 0xF0000000 == 0xE0000000 || destination == 0xFFFFFFFF

/-- 169.254/16 --/
def linkLocal (address : Address) : Bool := address &&& 0xFFFF0000 == 0xA9FE0000

def Interface.up (interface : Interface) : Bool := interface.valid && interface.linkUp

/-- Whether the caller, who may have named an interface, allows this one. --/
def allows (named : Option Nat) (i : Nat) : Bool := named.elim true (· == i)

/-- A local interface with the destination as its address. --/
def Instance.localInterface (b : Build) (ip : Instance) (destination : Address) (named : Option Nat) : Option Nat :=
  (List.range b.maxPhysicalInterfaces).find? fun i =>
    (ip.interface i).up && (ip.interface i).ipAddress == destination && allows named i

/-- What the table search asks of an entry. --/
def Instance.usable (ip : Instance) (destination : Address) (named : Option Nat) (e : RoutingEntry) : Bool :=
  (ip.interface e.entryIpInterface).linkUp && e.destIp == destination &&& e.netMask &&
    (ip.interface e.entryIpInterface).onNetwork e.nextHopAddress && allows named e.entryIpInterface

def Instance.tableEntry (ip : Instance) (destination : Address) (named : Option Nat) : Option RoutingEntry :=
  ip.routingTable.find? (ip.usable destination named)

/-- An interface on the network of the destination. The loopback interface takes it also from the named one. --/
def Instance.directInterface (b : Build) (ip : Instance) (destination : Address) (named : Option Nat) : Option Nat :=
  let reaches i := (ip.interface i).up && (ip.interface i).onNetwork destination
  match named with
  | some j => (List.range b.maxIpInterfaces).find? fun i => reaches i && (b.isLoopback i || i == j)
  | none =>
    ((List.range b.maxIpInterfaces).find? fun i => reaches i && b.isLoopback i) <|>
      ip.best (List.range b.maxIpInterfaces) reaches

/-- The interface that was named, or the first one, if it is up and will do. --/
def Instance.firstUp (b : Build) (ip : Instance) (named : Option Nat) (willDo : Interface → Bool) : Option Nat :=
  match named with
  | some j => if (ip.interface j).up && willDo (ip.interface j) then some j else none
  | none => (List.range b.maxIpInterfaces).find? fun i => (ip.interface i).up && willDo (ip.interface i)

/-- Whether there is a gateway, over an interface that is up. --/
def Instance.gateway (ip : Instance) : Option Nat :=
  ip.gatewayInterface.filter fun i => ip.gatewayAddress != 0 && (ip.interface i).linkUp

/-- The interface and the next hop of a packet. --/
def Instance.route (b : Build) (ip : Instance) (destination : Address) (named : Option Nat) : Option (Nat × Address) :=
  if toMany destination then
    match named with
    | some j => if (ip.interface j).linkUp then some (j, destination) else none
    | none =>
      (ip.best (List.range b.maxPhysicalInterfaces) fun i => (ip.interface i).linkUp).map (·, destination)
  else
    (ip.localInterface b destination named).map (·, destination) <|>
    (ip.tableEntry destination named).map (fun e => (e.entryIpInterface, e.nextHopAddress)) <|>
    (ip.directInterface b destination named).map (·, destination) <|>
    (if linkLocal destination then (ip.firstUp b named fun _ => true).map (·, destination) else none) <|>
    match ip.gateway with
    | some i =>
      -- a gateway that does not serve ends the search
      if (ip.interface i).onNetwork ip.gatewayAddress && allows named i then some (i, ip.gatewayAddress) else none
    | none => (ip.firstUp b named fun interface => linkLocal interface.ipAddress).map (·, destination)

/-- `_nx_ip_route_find`: the status, and what is left in `ip_interface_ptr` and `next_hop_address`. --/
def Instance.routeFind (b : Build) (ip : Instance) (destination : Address) (named : Option Nat) :
    Status × Option Nat × Address :=
  match ip.route b destination named with
  | some (i, nextHop) => (.success, some i, nextHop)
  | none => (.ipAddressError, named, if toMany destination then destination else 0)

/-! ### Runs -/

/-- What changes an instance. Attaching, addressing and the driver change an interface as they like. --/
inductive Action
  | staticRouteAdd (network mask nextHop : Address)
  | staticRouteDelete (network mask : Address)
  | interfaceDetach (index : Nat)
  | gatewayAddressSet (address : Address)
  | gatewayAddressClear
  | interfaceSet (index : Nat) (interface : Interface)

def Instance.perform (b : Build) (ip : Instance) : Action → Instance
  | .staticRouteAdd network mask nextHop => (ip.staticRouteAdd b network mask nextHop).2
  | .staticRouteDelete network mask => (ip.staticRouteDelete network mask).2
  | .interfaceDetach index => (ip.interfaceDetach index).2
  | .gatewayAddressSet address => (ip.gatewayAddressSet b address).2
  | .gatewayAddressClear => ip.gatewayAddressClear
  | .interfaceSet index interface => { ip with interface := Function.update ip.interface index interface }

def Instance.run (b : Build) (ip : Instance) (actions : List Action) : Instance := actions.foldl (Instance.perform b) ip

/-- An instance with no routes and no gateway. --/
def Instance.create (interface : Nat → Interface) : Instance := ⟨interface, [], 0, none⟩

/-! ### The table -/

section
variable {full : Bool} {new e : RoutingEntry} {table table' : List RoutingEntry}

/-- What an addition does to the table: the next hop of the first entry for its mask is replaced, or it is put before
    the first entry whose mask is not larger. --/
theorem addEntry_cases (h : addEntry full new table = some table') :
    (∃ front e back, table = front ++ e :: back ∧ e.destIp = new.destIp ∧ e.netMask = new.netMask ∧
      (∀ x ∈ front, new.netMask < x.netMask) ∧
      table' = front ++ { e with nextHopAddress := new.nextHopAddress } :: back) ∨
    full = false ∧ ∃ front back, table = front ++ back ∧ (∀ x ∈ front, new.netMask < x.netMask) ∧
      (∀ x ∈ back.head?, x.netMask ≤ new.netMask) ∧ table' = front ++ new :: back := by
  induction table generalizing table' with
  | nil =>
    simp only [addEntry] at h
    split at h
    · cases h
    · rename_i hfull
      simp only [Option.some.injEq] at h
      exact .inr ⟨by simpa using hfull, [], [], rfl, by simp, by simp, h.symm⟩
  | cons e rest ih =>
    simp only [addEntry] at h
    split at h
    · rename_i hsame
      simp only [Option.some.injEq] at h
      exact .inl ⟨[], e, rest, rfl, hsame.1, hsame.2, by simp, h.symm⟩
    · split at h
      · rename_i hmask
        split at h
        · cases h
        · rename_i hfull
          simp only [Option.some.injEq] at h
          exact .inr ⟨by simpa using hfull, [], e :: rest, rfl, by simp, by simpa using hmask, h.symm⟩
      · rename_i hmask
        have hlt : new.netMask < e.netMask := BitVec.not_le.mp hmask
        obtain ⟨rest', hrest, rfl⟩ := Option.map_eq_some_iff.mp h
        obtain ⟨front, x, back, rfl, hdest, hsame, hfront, rfl⟩ | ⟨hfull, front, back, rfl, hfront, hback, rfl⟩ :=
          ih hrest
        · refine .inl ⟨e :: front, x, back, rfl, hdest, hsame, ?_, rfl⟩
          simpa using ⟨hlt, hfront⟩
        · refine .inr ⟨hfull, e :: front, back, rfl, ?_, hback, rfl⟩
          simpa using ⟨hlt, hfront⟩

/-- The larger masks come first. --/
def Descending (table : List RoutingEntry) : Prop := table.Pairwise fun a b => b.netMask ≤ a.netMask

theorem addEntry_descending (h : addEntry full new table = some table') (hd : Descending table) : Descending table' :=
    by
  obtain ⟨front, e, back, rfl, -, hmask, -, rfl⟩ | ⟨-, front, back, rfl, hfront, hback, rfl⟩ := addEntry_cases h
  · simpa [Descending, List.pairwise_append] using hd
  · have hle : ∀ x ∈ back, x.netMask ≤ new.netMask := by
      intro x hx
      cases back with
      | nil => cases hx
      | cons y rest =>
        have hy : y.netMask ≤ new.netMask := hback y rfl
        rcases List.mem_cons.mp hx with rfl | hrest
        · exact hy
        · exact BitVec.le_trans ((List.pairwise_cons.mp (List.pairwise_append.mp hd).2.1).1 x hrest) hy
    obtain ⟨hf, hb, hfb⟩ := List.pairwise_append.mp hd
    refine List.pairwise_append.mpr ⟨hf, List.pairwise_cons.mpr ⟨hle, hb⟩, ?_⟩
    intro a ha x hx
    rcases List.mem_cons.mp hx with rfl | hx
    · exact BitVec.le_of_lt (hfront a ha)
    · exact hfb a ha x hx

theorem addEntry_mem (h : addEntry full new table = some table') {x : RoutingEntry} (hx : x ∈ table') :
    (∃ y ∈ table, x.destIp = y.destIp ∧ x.netMask = y.netMask) ∨ x = new := by
  obtain ⟨front, e, back, rfl, -, -, -, rfl⟩ | ⟨-, front, back, rfl, -, -, rfl⟩ := addEntry_cases h
  · refine .inl ?_
    rcases List.mem_append.mp hx with hx | hx
    · exact ⟨x, List.mem_append_left _ hx, rfl, rfl⟩
    · rcases List.mem_cons.mp hx with rfl | hx
      · exact ⟨e, by simp, rfl, rfl⟩
      · exact ⟨x, by simp [hx], rfl, rfl⟩
  · rcases List.mem_append.mp hx with hx | hx
    · exact .inl ⟨x, by simp [hx], rfl, rfl⟩
    · rcases List.mem_cons.mp hx with rfl | hx
      · exact .inr rfl
      · exact .inl ⟨x, by simp [hx], rfl, rfl⟩

theorem addEntry_length (h : addEntry full new table = some table') {size : Nat} (hsize : table.length ≤ size)
    (hfull : full = (table.length == size)) : table'.length ≤ size := by
  obtain ⟨front, e, back, rfl, -, -, -, rfl⟩ | ⟨hroom, front, back, rfl, -, -, rfl⟩ := addEntry_cases h
  · simpa using hsize
  · have hne : (front ++ back).length ≠ size := by simpa [hfull] using hroom
    have hlt : (front ++ back).length < size := Nat.lt_of_le_of_ne hsize hne
    simp only [List.length_append, List.length_cons] at hlt ⊢
    omega

/-- After an addition the first entry for its network has its next hop. --/
theorem addEntry_find (h : addEntry full new table = some table') :
    ∃ e, table'.find? (RoutingEntry.isFor new.destIp new.netMask) = some e ∧
      e.nextHopAddress = new.nextHopAddress := by
  have hskip {front rest : List RoutingEntry} (hfront : ∀ x ∈ front, new.netMask < x.netMask) :
      (front ++ rest).find? (RoutingEntry.isFor new.destIp new.netMask) =
        rest.find? (RoutingEntry.isFor new.destIp new.netMask) := by
    have hnone : front.find? (RoutingEntry.isFor new.destIp new.netMask) = none := by
      refine List.find?_eq_none.mpr fun x hx hfor => ?_
      simp only [RoutingEntry.isFor, Bool.and_eq_true, beq_iff_eq] at hfor
      exact BitVec.lt_irrefl _ (hfor.2 ▸ hfront x hx)
    simp [hnone]
  obtain ⟨front, e, back, rfl, hdest, hmask, hfront, rfl⟩ | ⟨-, front, back, rfl, hfront, -, rfl⟩ := addEntry_cases h
  · refine ⟨{ e with nextHopAddress := new.nextHopAddress }, ?_, rfl⟩
    rw [hskip hfront, List.find?_cons_of_pos (by simp [RoutingEntry.isFor, hdest, hmask])]
  · exact ⟨new, by rw [hskip hfront]; simp [RoutingEntry.isFor], rfl⟩

/-- An addition leaves the entries for other networks as they are. --/
theorem addEntry_find_other (h : addEntry full new table = some table') {network mask : Address}
    (hother : RoutingEntry.isFor network mask new = false) :
    table'.find? (RoutingEntry.isFor network mask) = table.find? (RoutingEntry.isFor network mask) := by
  obtain ⟨front, e, back, rfl, hdest, hmask, -, rfl⟩ | ⟨-, front, back, rfl, -, -, rfl⟩ := addEntry_cases h
  · have hpart (hop : Address) : RoutingEntry.isFor network mask { e with nextHopAddress := hop } = false := by
      simpa [RoutingEntry.isFor, hdest, hmask] using hother
    have he : RoutingEntry.isFor network mask e = false := hpart e.nextHopAddress
    rw [List.find?_append, List.find?_append, List.find?_cons_of_neg (by simp [hpart]),
      List.find?_cons_of_neg (by simp [he])]
  · simp [hother]

end

/-- What is erased was not the entry that is looked for. --/
theorem find?_eraseP {p q : RoutingEntry → Bool} (hpq : ∀ x, p x = true → q x = false) (table : List RoutingEntry) :
    (table.eraseP p).find? q = table.find? q := by
  induction table with
  | nil => rfl
  | cons x rest ih =>
    by_cases hp : p x = true
    · simp [List.eraseP_cons_of_pos hp, hpq x hp]
    · rw [List.eraseP_cons_of_neg hp, List.find?_cons, List.find?_cons, ih]

/-- An entry that stays is still found. --/
theorem find?_filter_kept {p q : RoutingEntry → Bool} {table : List RoutingEntry} {e : RoutingEntry}
    (h : table.find? q = some e) (he : p e = true) : (table.filter p).find? q = some e := by
  obtain ⟨hq, front, back, rfl, hfront⟩ := List.find?_eq_some_iff_append.mp h
  refine List.find?_eq_some_iff_append.mpr ⟨hq, front.filter p, back.filter p, by simp [he], ?_⟩
  exact fun x hx => hfront x (List.mem_filter.mp hx).1

/-! ### Instances -/

section
variable {b : Build} {ip : Instance} {network mask nextHop destination : Address} {named : Option Nat}

/-- An addition succeeds, or leaves everything as it is. --/
theorem Instance.staticRouteAdd_cases (b : Build) (ip : Instance) (network mask nextHop : Address) :
    (∃ i table, addEntry (ip.routingTable.length == b.routingTableSize) ⟨network &&& mask, mask, nextHop, i⟩
        ip.routingTable = some table ∧
      ip.staticRouteAdd b network mask nextHop = (.success, { ip with routingTable := table })) ∨
    (ip.staticRouteAdd b network mask nextHop).1 ≠ .success ∧
      (ip.staticRouteAdd b network mask nextHop).2 = ip := by
  unfold Instance.staticRouteAdd
  split
  · exact .inr ⟨by simp, rfl⟩
  · rename_i i _
    split
    · exact .inr ⟨by simp, rfl⟩
    · rename_i table htable
      exact .inl ⟨i, table, htable, rfl⟩

theorem Instance.staticRouteDelete_table : (ip.staticRouteDelete network mask).2.routingTable =
    ip.routingTable.eraseP (RoutingEntry.isFor (network &&& mask) mask) := by
  unfold Instance.staticRouteDelete
  split
  · rename_i hempty
    simp [List.isEmpty_iff.mp hempty]
  · split
    · rfl
    · rename_i hnone
      exact (List.eraseP_of_forall_not (by simpa using hnone)).symm

theorem Instance.interfaceDetach_table (index : Nat) : (ip.interfaceDetach index).2.routingTable = ip.routingTable ∨
    (ip.interfaceDetach index).2.routingTable = ip.routingTable.filter (·.entryIpInterface != index) := by
  unfold Instance.interfaceDetach
  split
  · exact .inr rfl
  · exact .inl rfl

theorem Instance.gatewayAddressSet_table (address : Address) :
    (ip.gatewayAddressSet b address).2.routingTable = ip.routingTable := by
  unfold Instance.gatewayAddressSet
  split <;> rfl

/-- What every operation keeps of the routing table. --/
structure Instance.Sound (b : Build) (ip : Instance) : Prop where
  descending : Descending ip.routingTable
  length : ip.routingTable.length ≤ b.routingTableSize
  network : ∀ e ∈ ip.routingTable, e.destIp &&& e.netMask = e.destIp

/-- Entries that stay in their order. --/
theorem Instance.Sound.sublist {ip' : Instance} (h : ip.Sound b)
    (hsub : List.Sublist ip'.routingTable ip.routingTable) : ip'.Sound b :=
  ⟨h.descending.sublist hsub, Nat.le_trans hsub.length_le h.length, fun e he => h.network e (hsub.subset he)⟩

theorem Instance.Sound.staticRouteAdd (h : ip.Sound b) : (ip.staticRouteAdd b network mask nextHop).2.Sound b := by
  obtain ⟨i, table, htable, heq⟩ | ⟨-, heq⟩ :=
    Instance.staticRouteAdd_cases b ip network mask nextHop
  · rw [heq]
    refine ⟨addEntry_descending htable h.descending, addEntry_length htable h.length rfl, ?_⟩
    intro e he
    obtain ⟨y, hy, hdest, hmask⟩ | rfl := addEntry_mem htable he
    · rw [hdest, hmask]
      exact h.network y hy
    · simp [BitVec.and_assoc]
  · rw [heq]
    exact h

theorem Instance.Sound.perform (h : ip.Sound b) (a : Action) : (ip.perform b a).Sound b := by
  cases a with
  | staticRouteAdd => exact h.staticRouteAdd
  | staticRouteDelete network mask =>
    refine h.sublist ?_
    simp only [Instance.perform, Instance.staticRouteDelete_table]
    exact List.eraseP_sublist
  | interfaceDetach index =>
    refine h.sublist ?_
    obtain hsame | hfilter := ip.interfaceDetach_table index
    · rw [Instance.perform, hsame]
    · rw [Instance.perform, hfilter]
      exact List.filter_sublist
  | gatewayAddressSet address =>
    refine h.sublist ?_
    rw [Instance.perform, Instance.gatewayAddressSet_table]
  | gatewayAddressClear => exact ⟨h.descending, h.length, h.network⟩
  | interfaceSet => exact ⟨h.descending, h.length, h.network⟩

theorem Instance.Sound.run (h : ip.Sound b) (actions : List Action) : (ip.run b actions).Sound b := by
  induction actions generalizing ip with
  | nil => exact h
  | cons a rest ih => exact ih (h.perform a)

/-- The action is not about this network, and leaves the interface. --/
def Action.leaves (network mask : Address) (index : Nat) : Action → Bool
  | .staticRouteAdd network' mask' _ => !(network' &&& mask' == network && mask' == mask)
  | .staticRouteDelete network' mask' => !(network' &&& mask' == network && mask' == mask)
  | .interfaceDetach index' => index' != index
  | _ => true

/-- A route stays the first one for its network until the network is named again or the interface is detached. --/
theorem Instance.perform_find {e : RoutingEntry} {a : Action}
    (h : ip.routingTable.find? (RoutingEntry.isFor network mask) = some e)
    (ha : a.leaves network mask e.entryIpInterface = true) :
    (ip.perform b a).routingTable.find? (RoutingEntry.isFor network mask) = some e := by
  cases a with
  | staticRouteAdd network' mask' nextHop' =>
    obtain ⟨i, table, htable, heq⟩ | ⟨-, heq⟩ :=
      Instance.staticRouteAdd_cases b ip network' mask' nextHop'
    · rw [Instance.perform, heq]
      exact (addEntry_find_other htable (by simpa [Action.leaves, RoutingEntry.isFor, imp_iff_not_or] using ha)).trans h
    · rw [Instance.perform, heq]
      exact h
  | staticRouteDelete network' mask' =>
    rw [Instance.perform, Instance.staticRouteDelete_table, find?_eraseP _ _]
    · exact h
    · intro x hx
      simp only [RoutingEntry.isFor, Bool.and_eq_true, beq_iff_eq] at hx
      simpa [Action.leaves, RoutingEntry.isFor, hx, imp_iff_not_or] using ha
  | interfaceDetach index =>
    obtain hsame | hfilter := ip.interfaceDetach_table index
    · rw [Instance.perform, hsame]
      exact h
    · rw [Instance.perform, hfilter]
      have hne : index ≠ e.entryIpInterface := by simpa [Action.leaves] using ha
      exact find?_filter_kept h (by simpa using hne.symm)
  | gatewayAddressSet address =>
    rw [Instance.perform, Instance.gatewayAddressSet_table]
    exact h
  | gatewayAddressClear => exact h
  | interfaceSet => exact h

theorem Instance.run_find {e : RoutingEntry} {actions : List Action}
    (h : ip.routingTable.find? (RoutingEntry.isFor network mask) = some e)
    (ha : ∀ a ∈ actions, a.leaves network mask e.entryIpInterface = true) :
    (ip.run b actions).routingTable.find? (RoutingEntry.isFor network mask) = some e := by
  induction actions generalizing ip with
  | nil => exact h
  | cons a rest ih =>
    exact ih (perform_find h (ha a List.mem_cons_self)) fun x hx => ha x (List.mem_cons_of_mem _ hx)

/-- The entry that the search finds will do, and no other that will do has a larger mask. --/
theorem Instance.Sound.tableEntry (h : ip.Sound b) {e : RoutingEntry} (he : ip.tableEntry destination named = some e) :
    e ∈ ip.routingTable ∧ ip.usable destination named e = true ∧
      ∀ e' ∈ ip.routingTable, ip.usable destination named e' = true → e'.netMask ≤ e.netMask := by
  obtain ⟨husable, front, back, htable, hfront⟩ := List.find?_eq_some_iff_append.mp he
  refine ⟨by simp [htable], husable, ?_⟩
  intro e' he' husable'
  have hd := h.descending
  rw [htable] at he' hd
  rcases List.mem_append.mp he' with hmem | hmem
  · have := hfront e' hmem
    simp [husable'] at this
  · rcases List.mem_cons.mp hmem with rfl | hmem
    · exact BitVec.le_refl _
    · exact (List.pairwise_cons.mp (List.pairwise_append.mp hd).2.1).1 e' hmem

end

/-! ### The search of a route -/

section
variable {b : Build} {ip : Instance} {destination : Address} {named : Option Nat} {i : Nat} {hop : Address}

/-- The search ends with what it found or was given, and none of them has a higher priority. --/
theorem Instance.foldl_better {l : List Nat} {found : Option Nat} (h : l.foldl ip.better found = some i) :
    (i ∈ l ∨ found = some i) ∧
      ∀ j, j ∈ l ∨ found = some j → (ip.interface j).priority ≤ (ip.interface i).priority := by
  induction l generalizing found with
  | nil =>
    obtain rfl : found = some i := h
    refine ⟨.inr rfl, fun j hj => ?_⟩
    obtain rfl := Option.some.inj (hj.resolve_left (by simp))
    exact Int.le_refl _
  | cons a l ih =>
    obtain ⟨hfound, hbest⟩ := ih h
    rcases found with _ | k
    · refine ⟨.inl ?_, fun j hj => hbest j ?_⟩
      · simpa [Instance.better, eq_comm, or_comm] using hfound
      · simpa [Instance.better, eq_comm, or_comm] using hj
    · by_cases hmore : (ip.interface k).priority < (ip.interface a).priority
      · simp only [Instance.better, if_pos hmore, Option.some.injEq] at hfound hbest
        refine ⟨.inl (by simpa [eq_comm, or_comm] using hfound), fun j hj => ?_⟩
        rcases hj with hj | hj
        · exact hbest j (by simpa [eq_comm, or_comm] using hj)
        · obtain rfl := Option.some.inj hj
          exact Int.le_trans (Int.le_of_lt hmore) (hbest a (.inr rfl))
      · simp only [Instance.better, if_neg hmore, Option.some.injEq] at hfound hbest
        refine ⟨hfound.imp (List.mem_cons_of_mem a) (congrArg some), fun j hj => ?_⟩
        rcases hj with hj | hj
        · rcases List.mem_cons.mp hj with rfl | hj
          · exact Int.le_trans (Int.not_lt.mp hmore) (hbest k (.inr rfl))
          · exact hbest j (.inl hj)
        · exact hbest j (.inr (Option.some.inj hj))

theorem Instance.best_spec {range : List Nat} {willDo : Nat → Bool} (h : ip.best range willDo = some i) :
    i ∈ range ∧ willDo i = true ∧
      ∀ j ∈ range, willDo j = true → (ip.interface j).priority ≤ (ip.interface i).priority := by
  obtain ⟨hmem, hmax⟩ := foldl_better h
  obtain ⟨hrange, hdo⟩ := List.mem_filter.mp (hmem.resolve_right (by simp))
  exact ⟨hrange, hdo, fun j hj hjdo => hmax j (.inl (List.mem_filter.mpr ⟨hj, hjdo⟩))⟩

theorem Instance.directInterface_spec (h : ip.directInterface b destination named = some i) :
    (ip.interface i).up = true ∧ (allows named i = true ∨ b.isLoopback i = true) := by
  unfold Instance.directInterface at h
  cases named with
  | none =>
    refine ⟨?_, .inl rfl⟩
    simp only [Option.orElse_eq_orElse, Option.orElse_eq_or, Option.or_eq_some_iff] at h
    obtain hloop | ⟨-, hbest⟩ := h
    · have := List.find?_some hloop
      simp only [Bool.and_eq_true] at this
      exact this.1.1
    · have := (best_spec hbest).2.1
      simp only [Bool.and_eq_true] at this
      exact this.1
  | some j =>
    have := List.find?_some h
    simp only [Bool.and_eq_true, Bool.or_eq_true, beq_iff_eq] at this
    exact ⟨this.1.1, this.2.symm.imp_left (by rintro rfl; simp [allows])⟩

theorem Instance.firstUp_spec {willDo : Interface → Bool} (h : ip.firstUp b named willDo = some i) :
    (ip.interface i).up = true ∧ allows named i = true := by
  unfold Instance.firstUp at h
  cases named with
  | none =>
    have := List.find?_some h
    simp only [Bool.and_eq_true] at this
    exact ⟨this.1, rfl⟩
  | some j =>
    simp only [Option.ite_none_right_eq_some, Bool.and_eq_true, Option.some.injEq] at h
    obtain ⟨⟨hup, -⟩, rfl⟩ := h
    exact ⟨hup, by simp [allows]⟩

theorem Interface.up_linkUp {interface : Interface} (h : interface.up = true) : interface.linkUp = true := by
  simp only [Interface.up, Bool.and_eq_true] at h
  exact h.2

/-- A route goes over an interface whose link is up: the one that the caller named, if it named one, except that the
    loopback interface takes what is on its network. --/
theorem Instance.route_up (h : ip.route b destination named = some (i, hop)) :
    (ip.interface i).linkUp = true ∧ (allows named i = true ∨ b.isLoopback i = true) := by
  unfold Instance.route at h
  split at h
  · cases named with
    | none =>
      obtain ⟨j, hbest, hj⟩ := Option.map_eq_some_iff.mp h
      cases hj
      exact ⟨(best_spec hbest).2.1, .inl rfl⟩
    | some j =>
      simp only [Option.ite_none_right_eq_some, Option.some.injEq, Prod.mk.injEq] at h
      obtain ⟨hup, rfl, -⟩ := h
      exact ⟨hup, .inl (by simp [allows])⟩
  · simp only [Option.orElse_eq_orElse, Option.orElse_eq_or, Option.or_eq_some_iff, Option.map_eq_some_iff] at h
    obtain ⟨j, hlocal, hj⟩ | ⟨-, ⟨e, hentry, hj⟩ | ⟨-, ⟨j, hdirect, hj⟩ | ⟨-, hlink | ⟨-, hrest⟩⟩⟩⟩ := h
    · cases hj
      have := List.find?_some hlocal
      simp only [Bool.and_eq_true] at this
      exact ⟨Interface.up_linkUp this.1.1, .inl this.2⟩
    · cases hj
      have := List.find?_some hentry
      simp only [Instance.usable, Bool.and_eq_true] at this
      exact ⟨this.1.1.1, .inl this.2⟩
    · cases hj
      obtain ⟨hup, hallowed⟩ := directInterface_spec hdirect
      exact ⟨Interface.up_linkUp hup, hallowed⟩
    · split at hlink
      · obtain ⟨j, hfirst, hj⟩ := Option.map_eq_some_iff.mp hlink
        cases hj
        obtain ⟨hup, hallowed⟩ := firstUp_spec hfirst
        exact ⟨Interface.up_linkUp hup, .inl hallowed⟩
      · cases hlink
    · split at hrest
      · rename_i j hgateway
        simp only [Option.ite_none_right_eq_some, Bool.and_eq_true, Option.some.injEq, Prod.mk.injEq] at hrest
        obtain ⟨⟨-, hallowed⟩, rfl, -⟩ := hrest
        have hup := (Option.filter_eq_some_iff.mp hgateway).2
        simp only [Bool.and_eq_true] at hup
        exact ⟨hup.2, .inl hallowed⟩
      · obtain ⟨j, hfirst, hj⟩ := Option.map_eq_some_iff.mp hrest
        cases hj
        obtain ⟨hup, hallowed⟩ := firstUp_spec hfirst
        exact ⟨Interface.up_linkUp hup, .inl hallowed⟩

end

/-! ### Prefixes -/

/-- The mask of a prefix of `n` bits. --/
def prefixMask (n : Nat) : Address := BitVec.allOnes 32 <<< (32 - n)

/-- The order of the table is that of the lengths. --/
theorem prefixMask_le {m n : Nat} (hm : m ≤ 32) (hn : n ≤ 32) (h : prefixMask m ≤ prefixMask n) : m ≤ n := by
  have hall : ∀ m n : Fin 33, prefixMask m ≤ prefixMask n → m ≤ n := by decide +kernel
  exact hall ⟨m, by omega⟩ ⟨n, by omega⟩ h

/-! ### The result -/

/-- Whatever was done to an instance:
    its table has at most its size of routes;
    a route that is found goes over an interface that is up, and that the caller named if it named one (or over
    loopback);
    to a unicast destination that is not local, for which some static route will do, it is such a route, with none of
    a longer prefix among those;
    and a route that is added is from then on the one for its network, with its next hop, until the network is named
    again or the interface of the route is detached. --/
theorem run_routes (b : Build) (interface : Nat → Interface) (actions : List Action) :
    ((Instance.create interface).run b actions).routingTable.length ≤ b.routingTableSize ∧
    (∀ destination named,
      (((Instance.create interface).run b actions).routeFind b destination named).1 = .success →
      ∃ i, (((Instance.create interface).run b actions).routeFind b destination named).2.1 = some i ∧
        (((Instance.create interface).run b actions).interface i).linkUp = true ∧
        (named = none ∨ named = some i ∨ b.isLoopback i = true)) ∧
    (∀ destination named, toMany destination = false →
      ((Instance.create interface).run b actions).localInterface b destination named = none →
      (∃ e ∈ ((Instance.create interface).run b actions).routingTable,
        ((Instance.create interface).run b actions).usable destination named e = true) →
      ∃ e ∈ ((Instance.create interface).run b actions).routingTable,
        ((Instance.create interface).run b actions).usable destination named e = true ∧
        ((Instance.create interface).run b actions).routeFind b destination named =
          (.success, some e.entryIpInterface, e.nextHopAddress) ∧
        ∀ e' ∈ ((Instance.create interface).run b actions).routingTable,
          ((Instance.create interface).run b actions).usable destination named e' = true →
          ∀ m ≤ 32, ∀ n ≤ 32, e'.netMask = prefixMask m → e.netMask = prefixMask n → m ≤ n) ∧
    ∀ network mask nextHop,
      (((Instance.create interface).run b actions).staticRouteAdd b network mask nextHop).1 = .success →
      ∃ e : RoutingEntry, e.nextHopAddress = nextHop ∧
        ∀ later : List Action, (∀ a ∈ later, a.leaves (network &&& mask) mask e.entryIpInterface = true) →
          ((((Instance.create interface).run b actions).staticRouteAdd b network mask nextHop).2.run b
            later).routingTable.find? (RoutingEntry.isFor (network &&& mask) mask) = some e := by
  have hstart : (Instance.create interface).Sound b := ⟨List.Pairwise.nil, Nat.zero_le _, by simp [Instance.create]⟩
  have hsound := hstart.run actions
  generalize (Instance.create interface).run b actions = ip at hsound
  refine ⟨hsound.length, ?_, ?_, ?_⟩
  · intro destination named hsuccess
    unfold Instance.routeFind at hsuccess ⊢
    split
    · rename_i i hop hroute
      obtain ⟨hup, hallowed⟩ := Instance.route_up hroute
      refine ⟨i, rfl, hup, ?_⟩
      cases named with
      | none => exact .inl rfl
      | some j =>
        refine .inr (hallowed.imp_left fun hallows => ?_)
        have hj : j = i := by simpa [allows] using hallows
        rw [hj]
    · rename_i hroute
      simp [hroute] at hsuccess
  · rintro destination named hone hlocal ⟨e, he, husable⟩
    obtain ⟨found, hfound⟩ : ∃ found, ip.tableEntry destination named = some found := by
      rw [← Option.isSome_iff_exists, Instance.tableEntry, List.find?_isSome]
      exact ⟨e, he, husable⟩
    obtain ⟨hmem, hdo, hmost⟩ := hsound.tableEntry hfound
    refine ⟨found, hmem, hdo, ?_, ?_⟩
    · simp [Instance.routeFind, Instance.route, hone, hlocal, hfound]
    · intro e' he' husable' m hm n hn hmaskm hmaskn
      exact prefixMask_le hm hn (hmaskm ▸ hmaskn ▸ hmost e' he' husable')
  · intro network mask nextHop hsuccess
    obtain ⟨i, table, htable, heq⟩ | ⟨hfail, -⟩ :=
      Instance.staticRouteAdd_cases b ip network mask nextHop
    · obtain ⟨e, hfind, hhop⟩ := addEntry_find htable
      refine ⟨e, hhop, fun later hlater => Instance.run_find ?_ hlater⟩
      rw [heq]
      exact hfind
    · exact absurd hsuccess hfail

/-- A network that is added again with another one of its mask in between is in the table twice, and one deletion
    brings the first route back. --/
example :
    let b : Build := ⟨1, false, 8⟩
    let interface : Interface := ⟨true, true, 0x0A000001, 0xFF000000, 0x0A000000, 0⟩
    let add (network hop : Address) : Action := .staticRouteAdd network 0xFFFFFF00 hop
    let ip := (Instance.create fun _ => interface).run b
      [add 0xC0A80100 0x0A000002, add 0xC0A80200 0x0A000003, add 0xC0A80100 0x0A000004,
        .staticRouteDelete 0xC0A80100 0xFFFFFF00]
    (ip.routeFind b 0xC0A80105 none).2.2 = 0x0A000002 := by decide +kernel

end Netxduo.Ip.Routing
