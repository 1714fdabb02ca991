import Cled.Core.InsertionMap
import Cled.Desktop.ThroughRelay
import Cled.Lan.Addresses
import Cled.Lan.Opening

/-!
# Finding devices on the network

A device announces itself under a name made of its ID: the port it listens on
and, while it shows a pairing code, what it is called.  Announcements often
arrive in parts, each with some of the addresses, and the parts are put together
until the device listens on another port.

Announcing and browsing belong to a crate.  Here it tells what was announced, in
whatever order and as often as it likes.
-/

namespace Cled.Lan

open Cled.Core Cled.Sync Cled.Desktop

/-! ## Announcements -/

def serviceType : String := "_cled._tcp.local."

inductive IpAddr where
  | v4 (ip : BitVec 32)
  | v6 (ip : BitVec 128)
  deriving DecidableEq

/-- An address as the crate tells it. -/
inductive ScopedIp where
  | v4 (ip : BitVec 32)
  | v6 (ip : BitVec 128) (scopeId : UInt32)
  deriving DecidableEq

/-- An IPv4 address has no scope. -/
def unpack : ScopedIp → IpAddr × UInt32
  | .v6 ip scopeId => (.v6 ip, scopeId)
  | .v4 ip => (.v4 ip, 0)

def withScope (port : UInt16) : IpAddr × UInt32 → SocketAddr
  | (.v6 ip, scope) => .v6 ip port 0 scope
  | (.v4 ip, _) => .v4 ip port

/-- A resolved service. -/
structure Service where
  fullname : String
  port : UInt16
  /-- `get_property_val_str`. -/
  property : String → Option String
  addresses : List ScopedIp

inductive ServiceEvent where
  | resolved (service : Service)
  | removed (fullname : String)
  /-- The search started, stopped or found a name only. -/
  | other

/-- What `advertise` registers. -/
structure Registration where
  deviceId : DeviceId
  port : UInt16
  pairingName : Option String
  deriving DecidableEq

section Advertise

variable (format : UuidFormat)

def Registration.properties (registration : Registration) :
    List (String × String) :=
  [("v", toString protocolVersion.toNat),
    ("id", deviceText format registration.deviceId)] ++
      match registration.pairingName with
      | none => []
      | some name => [("pair", "1"), ("name", name)]

def fullnameOf (device : DeviceId) : String :=
  deviceText format device ++ "." ++ serviceType

end Advertise

/-! ## Browsing -/

structure Found where
  deviceId : DeviceId
  port : UInt16
  /-- Every address seen for this announcement. -/
  ips : List (IpAddr × UInt32)
  /-- Set while the device is showing a pairing code. -/
  pairingName : Option String
  deriving DecidableEq

/-- `PairableDevice`. -/
structure PairableDevice where
  deviceId : DeviceId
  name : String
  address : SocketAddr
  deriving DecidableEq

/-- What `run` reads in a resolved service. -/
structure Announced where
  deviceId : DeviceId
  port : UInt16
  ips : List (IpAddr × UInt32)
  pairingName : Option String
  deriving DecidableEq

section Browse

variable (format : UuidFormat) (me : DeviceId)

/-- Nothing for a service without a device ID, or with this device's own. -/
def Service.read (service : Service) : Option Announced := do
  let id ← service.property "id"
  let deviceId ← parseDevice format id
  if deviceId = me then none
  else
    some
      { deviceId
        port := service.port
        ips := service.addresses.map unpack
        pairingName :=
          if service.property "pair" = some "1" then service.property "name"
          else none }

/-- The entry after one more announcement under its name. -/
def Found.hear (entry : Option Found) (announced : Announced) : Found :=
  let entry := entry.getD
    { deviceId := announced.deviceId
      port := announced.port
      ips := []
      pairingName := none }
  -- The device restarted on a new port (or the name was reused).
  let ips :=
    if entry.port ≠ announced.port ∨ entry.deviceId ≠ announced.deviceId then []
    else entry.ips
  { deviceId := announced.deviceId
    port := announced.port
    ips := addNew ips announced.ips
    pairingName := announced.pairingName }

/-- One event of the loop of `run`. -/
def onServiceEvent (found : InsertionMap String Found) :
    ServiceEvent → InsertionMap String Found
  | .resolved service =>
      match service.read format me with
      | none => found
      | some announced =>
          found.set service.fullname
            (.hear (found.get service.fullname) announced)
  | .removed fullname => found.delete fullname
  | .other => found

/-- What was found after these events. -/
def browse (events : List ServiceEvent) : InsertionMap String Found :=
  events.foldl (onServiceEvent format me) .empty

end Browse

section Lookup

variable (networks : List (BitVec 32 × BitVec 32))

/-- `Found::addresses`. -/
def Found.addresses (found : Found) : List SocketAddr :=
  rankWith networks (found.ips.map (withScope found.port))

/-- `Discovery::addresses_of`. -/
def addressesOf (found : InsertionMap String Found) (device : DeviceId) :
    List SocketAddr :=
  (found.values.filter fun entry => entry.deviceId = device).flatMap
    (Found.addresses networks)

def Found.pairable (found : Found) : Option PairableDevice := do
  let name ← found.pairingName
  let address ← (found.addresses networks).head?
  some { deviceId := found.deviceId, name, address }

/-- `Discovery::pairable`. -/
def pairable (found : InsertionMap String Found) (me : DeviceId) :
    List PairableDevice :=
  (found.values.filter fun entry => entry.deviceId ≠ me).filterMap
    (Found.pairable networks)

end Lookup

/-! ## Histories -/

/-- By this device, with this port. -/
def Announced.alike (port : UInt16) (device : DeviceId) (announced : Announced) :
    Bool :=
  announced.port = port && announced.deviceId = device

/-- The last of these and those before it that were made by the same device with
the same port. -/
def lasting (history : List Announced) : List Announced :=
  match history.getLast? with
  | none => []
  | some last => history.rtakeWhile (Announced.alike last.port last.deviceId)

/-- What these announcements, all under one name, come to. -/
def summary (history : List Announced) : Option Found :=
  history.getLast?.map fun last =>
    { deviceId := last.deviceId
      port := last.port
      ips := keepFirst ((lasting history).flatMap Announced.ips)
      pairingName := last.pairingName }

section History

variable (format : UuidFormat) (me : DeviceId) (fullname : String)

/-- The announcements under a name since it was last removed. -/
def remember (history : List Announced) : ServiceEvent → List Announced
  | .resolved service =>
      if service.fullname = fullname then
        history ++ (service.read format me).toList
      else history
  | .removed removed => if removed = fullname then [] else history
  | .other => history

def history (events : List ServiceEvent) : List Announced :=
  events.foldl (remember format me fullname) []

end History

theorem lasting_concat (history : List Announced) (announced : Announced) :
    lasting (history ++ [announced]) =
      history.rtakeWhile (Announced.alike announced.port announced.deviceId) ++
        [announced] := by
  rw [lasting, List.getLast?_concat]
  exact List.rtakeWhile_concat_pos _ _ _ (by simp [Announced.alike])

/-- An entry holds what all the announcements up to the last one come to. -/
theorem hear_summary (history : List Announced) (announced : Announced) :
    some (Found.hear (summary history) announced) =
      summary (history ++ [announced]) := by
  have hsummary : summary (history ++ [announced]) = some
      { deviceId := announced.deviceId
        port := announced.port
        ips := keepFirst ((lasting (history ++ [announced])).flatMap Announced.ips)
        pairingName := announced.pairingName } := by
    rw [summary, List.getLast?_concat]
    rfl
  rw [hsummary, lasting_concat, List.flatMap_append, List.flatMap_singleton,
    keepFirst_append]
  cases history using List.reverseRecOn with
  | nil => simp [summary, Found.hear, keepFirst]
  | append_singleton front last =>
      rw [summary, lasting, List.getLast?_concat]
      by_cases hsame : last.port = announced.port ∧
          last.deviceId = announced.deviceId
      · obtain ⟨hport, hdevice⟩ := hsame
        simp [Found.hear, hport, hdevice]
      · have hother : ¬ last.alike announced.port announced.deviceId = true := by
          simpa [Announced.alike] using hsame
        have hdiffers : last.port ≠ announced.port ∨
            last.deviceId ≠ announced.deviceId := not_and_or.mp hsame
        rw [List.rtakeWhile_concat_neg _ _ _ hother]
        simp only [Found.hear, Option.map_some, Option.getD_some, if_pos hdiffers]
        rfl

section Refinement

variable {format : UuidFormat} {me : DeviceId}

theorem browse_concat (events : List ServiceEvent) (event : ServiceEvent) :
    browse format me (events ++ [event]) =
      onServiceEvent format me (browse format me events) event := by
  rw [browse, List.foldl_append]
  rfl

theorem history_concat (fullname : String) (events : List ServiceEvent)
    (event : ServiceEvent) :
    history format me fullname (events ++ [event]) =
      remember format me fullname (history format me fullname events) event := by
  rw [history, List.foldl_append]
  rfl

/-- What is known under a name is what the announcements under it since it was
last removed come to. -/
theorem get_browse (events : List ServiceEvent) (fullname : String) :
    (browse format me events).get fullname =
      summary (history format me fullname events) := by
  induction events using List.reverseRecOn with
  | nil => rfl
  | append_singleton events event ih =>
      rw [browse_concat, history_concat]
      cases event with
      | other => exact ih
      | removed removed =>
          simp only [onServiceEvent, remember, InsertionMap.get_delete]
          by_cases hname : fullname = removed
          · rw [if_pos hname, if_pos hname.symm]
            rfl
          · rw [if_neg hname, if_neg (Ne.symm hname)]
            exact ih
      | resolved service =>
          simp only [onServiceEvent, remember]
          cases hread : service.read format me with
          | none => simpa using ih
          | some announced =>
              rw [InsertionMap.get_set]
              by_cases hname : fullname = service.fullname
              · subst hname
                rw [if_pos rfl, if_pos rfl, ih]
                exact hear_summary _ announced
              · rw [if_neg hname, if_neg (Ne.symm hname)]
                exact ih

end Refinement

/-! ## The devices of a network -/

/-- What a device does: it announces itself with some of its addresses, or goes
away. -/
inductive Word where
  | announces (registration : Registration) (addresses : List ScopedIp)
  | leaves (device : DeviceId)
  deriving DecidableEq

def Registration.announced (registration : Registration)
    (addresses : List ScopedIp) : Announced :=
  { deviceId := registration.deviceId
    port := registration.port
    ips := addresses.map unpack
    pairingName := registration.pairingName }

/-- What a device has said since it last went away. -/
def listen (device : DeviceId) (said : List Announced) : Word → List Announced
  | .announces registration addresses =>
      if registration.deviceId = device then
        said ++ [registration.announced addresses]
      else said
  | .leaves other => if other = device then [] else said

def said (device : DeviceId) (words : List Word) : List Announced :=
  words.foldl (listen device) []

/-- The addresses that a device announced with the port that it has now. -/
def reachable (said : List Announced) : List SocketAddr :=
  (lasting said).flatMap fun announced =>
    announced.ips.map (withScope announced.port)

section Network

variable (format : UuidFormat)

/-- The service has the properties that were registered. -/
structure Carries (registration : Registration) (service : Service) : Prop where
  fullname : service.fullname = fullnameOf format registration.deviceId
  port : service.port = registration.port
  property : ∀ key,
    service.property key = (registration.properties format).lookup key

/-- The crate tells of what a device does. -/
inductive Tells : Word → ServiceEvent → Prop
  | announces {registration : Registration} {service : Service}
      (hcarries : Carries format registration service) :
      Tells (.announces registration service.addresses) (.resolved service)
  | leaves (device : DeviceId) :
      Tells (.leaves device) (.removed (fullnameOf format device))

variable {format} {me device : DeviceId}

/-- What a device registers is read back elsewhere, and never by itself. -/
theorem Carries.read (hformat : format.Hyphenated) {registration : Registration}
    {service : Service} (hcarries : Carries format registration service) :
    service.read format me =
      if registration.deviceId = me then none
      else some (registration.announced service.addresses) := by
  have hid : service.property "id" =
      some (deviceText format registration.deviceId) := by
    rw [hcarries.property]
    rfl
  have hname : (if service.property "pair" = some "1" then service.property "name"
      else none) = registration.pairingName := by
    rw [hcarries.property, hcarries.property, Registration.properties]
    cases registration.pairingName with
    | none => rfl
    | some name => rfl
  simp only [Service.read, hid, hname, hcarries.port, Option.bind_eq_bind,
    Option.bind_some, parseDevice_deviceText hformat]
  rfl

theorem fullnameOf_injective (hformat : format.Hyphenated) :
    Function.Injective (fullnameOf format) := by
  intro left right hequal
  have hlists := congrArg String.toList hequal
  simp only [fullnameOf, String.toList_append, List.append_cancel_right_eq] at hlists
  have htext : deviceText format left = deviceText format right :=
    String.toList_inj.mp hlists
  have hparse := congrArg (parseDevice format) htext
  rw [parseDevice_deviceText hformat, parseDevice_deviceText hformat] at hparse
  exact Option.some.inj hparse

/-- What is remembered under a device's name is what it has said. -/
theorem history_said (hformat : format.Hyphenated) (hother : device ≠ me)
    {words : List Word} {events : List ServiceEvent}
    (htells : List.Forall₂ (Tells format) words events) :
    history format me (fullnameOf format device) events = said device words := by
  have hfrom : ∀ known : List Announced,
      events.foldl (remember format me (fullnameOf format device)) known =
        words.foldl (listen device) known := by
    induction htells with
    | nil => exact fun _ => rfl
    | cons htell hrest ih =>
        intro known
        rw [List.foldl_cons, List.foldl_cons, ← ih]
        congr 1
        cases htell with
        | leaves other =>
            simp only [remember, listen, (fullnameOf_injective hformat).eq_iff]
        | announces hcarries =>
            simp only [remember, listen, hcarries.fullname, hcarries.read hformat,
              (fullnameOf_injective hformat).eq_iff]
            split
            · next hdevice =>
              subst hdevice
              rw [if_neg hother]
              rfl
            · rfl
  exact hfrom []

/-- Nothing is remembered of this device itself, nor under other names. -/
theorem history_eq_nil (hformat : format.Hyphenated) {fullname : String}
    (hname : ∀ device, device ≠ me → fullname ≠ fullnameOf format device)
    {words : List Word} {events : List ServiceEvent}
    (htells : List.Forall₂ (Tells format) words events) :
    history format me fullname events = [] := by
  have hfold : ∀ {words : List Word} {events : List ServiceEvent},
      List.Forall₂ (Tells format) words events →
        events.foldl (remember format me fullname) [] = [] := by
    intro words events htells
    induction htells with
    | nil => rfl
    | cons htell hrest ih =>
        rw [List.foldl_cons]
        cases htell with
        | leaves other => simpa [remember] using ih
        | @announces registration service hcarries =>
            simp only [remember, hcarries.fullname, hcarries.read hformat]
            by_cases hme : registration.deviceId = me
            · simpa [hme] using ih
            · rw [if_neg (Ne.symm (hname _ hme))]
              exact ih
  exact hfold htells

/-- A device announces nothing but itself. -/
theorem deviceId_of_mem_said {words : List Word} {announced : Announced}
    (hmem : announced ∈ said device words) : announced.deviceId = device := by
  induction words using List.reverseRecOn with
  | nil => cases hmem
  | append_singleton words word ih =>
      rw [said, List.foldl_append] at hmem
      cases word with
      | leaves other =>
          simp only [List.foldl_cons, List.foldl_nil, listen] at hmem
          split at hmem
          · cases hmem
          · exact ih hmem
      | announces registration addresses =>
          simp only [List.foldl_cons, List.foldl_nil, listen] at hmem
          split at hmem
          · next hdevice =>
            rcases List.mem_append.mp hmem with hmem | hlast
            · exact ih hmem
            · obtain rfl := List.mem_singleton.mp hlast
              exact hdevice
          · exact ih hmem

theorem deviceId_of_summary {words : List Word} {entry : Found}
    (hsummary : summary (said device words) = some entry) :
    entry.deviceId = device := by
  obtain ⟨last, hlast, rfl⟩ := Option.map_eq_some_iff.mp hsummary
  exact deviceId_of_mem_said (List.mem_of_getLast? hlast)

/-- The addresses of an entry are those that were announced with its port. -/
theorem summary_addresses (networks : List (BitVec 32 × BitVec 32))
    {history : List Announced} {entry : Found}
    (hsummary : summary history = some entry) :
    entry.addresses networks = rankWith networks (reachable history) := by
  obtain ⟨last, hlast, rfl⟩ := Option.map_eq_some_iff.mp hsummary
  have hport : ∀ announced ∈ lasting history, announced.port = last.port := by
    intro announced hmem
    rw [lasting, hlast] at hmem
    have halike := List.mem_rtakeWhile_imp hmem
    exact (by simpa [Announced.alike] using halike : _ ∧ _).1
  have hreachable : reachable history =
      ((lasting history).flatMap Announced.ips).map (withScope last.port) := by
    rw [reachable, List.map_flatMap]
    exact List.flatMap_congr fun announced hmem => by rw [hport announced hmem]
  rw [Found.addresses, rankWith_eq, rankWith_eq, keepFirst_map, hreachable]

/-- Each entry is under the name of its device, and none is this one's. -/
theorem get_browse_some (hformat : format.Hyphenated) {words : List Word}
    {events : List ServiceEvent}
    (htells : List.Forall₂ (Tells format) words events) {fullname : String}
    {entry : Found}
    (hget : (browse format me events).get fullname = some entry) :
    entry.deviceId ≠ me ∧ fullname = fullnameOf format entry.deviceId := by
  rw [get_browse] at hget
  by_cases hname : ∃ device, device ≠ me ∧ fullname = fullnameOf format device
  · obtain ⟨device, hother, rfl⟩ := hname
    rw [history_said hformat hother htells] at hget
    obtain rfl := deviceId_of_summary hget
    exact ⟨hother, rfl⟩
  · have hnone := history_eq_nil hformat
      (fun device hother heq => hname ⟨device, hother, heq⟩) htells
    rw [hnone] at hget
    cases hget

/-- The entries of another device: one at most, and it holds what the device has
said. -/
theorem entries_of_device (hformat : format.Hyphenated) {words : List Word}
    {events : List ServiceEvent}
    (htells : List.Forall₂ (Tells format) words events) (hother : device ≠ me) :
    ((browse format me events).values.filter fun entry =>
      entry.deviceId = device) = (summary (said device words)).toList := by
  have hkey : ∀ fullname entry,
      (browse format me events).get fullname = some entry →
        (decide (entry.deviceId = device) = true ↔
          fullname = fullnameOf format device) := by
    intro fullname entry hget
    obtain ⟨-, rfl⟩ := get_browse_some hformat htells hget
    rw [decide_eq_true_eq, (fullnameOf_injective hformat).eq_iff]
  rw [InsertionMap.filter_values hkey, get_browse,
    history_said hformat hother htells]

theorem addressesOf_browse (networks : List (BitVec 32 × BitVec 32))
    (hformat : format.Hyphenated) {words : List Word}
    {events : List ServiceEvent}
    (htells : List.Forall₂ (Tells format) words events) (hother : device ≠ me) :
    addressesOf networks (browse format me events) device =
      rankWith networks (reachable (said device words)) := by
  rw [addressesOf, entries_of_device hformat htells hother]
  cases hsummary : summary (said device words) with
  | none =>
      have hsilent : said device words = [] := by
        simpa [summary] using hsummary
      rw [hsilent]
      rfl
  | some entry =>
      rw [← summary_addresses networks hsummary]
      exact List.append_nil _

theorem addressesOf_self (networks : List (BitVec 32 × BitVec 32))
    (hformat : format.Hyphenated) {words : List Word}
    {events : List ServiceEvent}
    (htells : List.Forall₂ (Tells format) words events) :
    addressesOf networks (browse format me events) me = [] := by
  have hnone : ((browse format me events).values.filter fun entry =>
      entry.deviceId = me) = [] := by
    refine List.filter_eq_nil_iff.mpr fun entry hmem hself => ?_
    obtain ⟨fullname, hget⟩ := InsertionMap.mem_values_iff.mp hmem
    exact (get_browse_some hformat htells hget).1 (of_decide_eq_true hself)
  rw [addressesOf, hnone, List.flatMap_nil]

theorem mem_values_browse (hformat : format.Hyphenated) {words : List Word}
    {events : List ServiceEvent}
    (htells : List.Forall₂ (Tells format) words events) {entry : Found} :
    entry ∈ (browse format me events).values ↔
      entry.deviceId ≠ me ∧
        summary (said entry.deviceId words) = some entry := by
  constructor
  · intro hmem
    obtain ⟨fullname, hget⟩ := InsertionMap.mem_values_iff.mp hmem
    obtain ⟨hother, rfl⟩ := get_browse_some hformat htells hget
    rw [get_browse, history_said hformat hother htells] at hget
    exact ⟨hother, hget⟩
  · rintro ⟨hother, hsummary⟩
    refine InsertionMap.mem_values_iff.mpr
      ⟨fullnameOf format entry.deviceId, ?_⟩
    rw [get_browse, history_said hformat hother htells, hsummary]

theorem pairable_eq_some_iff (networks : List (BitVec 32 × BitVec 32))
    {entry : Found} {found : PairableDevice} :
    entry.pairable networks = some found ↔
      entry.deviceId = found.deviceId ∧ entry.pairingName = some found.name ∧
        (entry.addresses networks).head? = some found.address := by
  constructor
  · intro hpairable
    obtain ⟨name, hname, hrest⟩ := Option.bind_eq_some_iff.mp hpairable
    obtain ⟨address, haddress, hfound⟩ := Option.bind_eq_some_iff.mp hrest
    obtain rfl := Option.some.inj hfound
    exact ⟨rfl, hname, haddress⟩
  · rintro ⟨hdevice, hname, haddress⟩
    rw [Found.pairable, hname, haddress, hdevice]
    rfl

/-- The devices offered are those whose last word was that they show a code,
each at the best of its addresses. -/
theorem mem_pairable_browse (networks : List (BitVec 32 × BitVec 32))
    (hformat : format.Hyphenated) {words : List Word}
    {events : List ServiceEvent}
    (htells : List.Forall₂ (Tells format) words events)
    {found : PairableDevice} :
    found ∈ pairable networks (browse format me events) me ↔
      found.deviceId ≠ me ∧
      (∃ last ∈ (said found.deviceId words).getLast?,
        last.pairingName = some found.name) ∧
      (rankWith networks (reachable (said found.deviceId words))).head? =
        some found.address := by
  rw [pairable, List.mem_filterMap]
  constructor
  · rintro ⟨entry, hentry, hpairable⟩
    obtain ⟨hdevice, hname, haddress⟩ :=
      (pairable_eq_some_iff networks).mp hpairable
    obtain ⟨hother, hsummary⟩ :=
      (mem_values_browse hformat htells).mp (List.mem_filter.mp hentry).1
    rw [hdevice] at hother hsummary
    rw [summary_addresses networks hsummary] at haddress
    obtain ⟨last, hlast, rfl⟩ := Option.map_eq_some_iff.mp hsummary
    exact ⟨hother, ⟨last, hlast, hname⟩, haddress⟩
  · rintro ⟨hother, ⟨last, hlast, hname⟩, haddress⟩
    obtain ⟨entry, hsummary⟩ : ∃ entry,
        summary (said found.deviceId words) = some entry := by
      rw [summary, hlast]
      exact ⟨_, rfl⟩
    have hdevice := deviceId_of_summary hsummary
    have hentry : entry ∈ (browse format me events).values := by
      rw [mem_values_browse hformat htells, hdevice]
      exact ⟨hother, hsummary⟩
    refine ⟨entry, List.mem_filter.mpr ⟨hentry, ?_⟩,
      (pairable_eq_some_iff networks).mpr ⟨hdevice, ?_, ?_⟩⟩
    · rw [hdevice]
      exact decide_eq_true hother
    · rw [summary, hlast] at hsummary
      obtain rfl := Option.some.inj hsummary
      exact hname
    · rwa [summary_addresses networks hsummary]

/-- No device is offered twice. -/
theorem nodup_pairable_browse (networks : List (BitVec 32 × BitVec 32))
    (hformat : format.Hyphenated) {words : List Word}
    {events : List ServiceEvent}
    (htells : List.Forall₂ (Tells format) words events) :
    ((pairable networks (browse format me events) me).map
      PairableDevice.deviceId).Nodup := by
  have hnames : (browse format me events).rows.map Prod.fst =
      (browse format me events).values.map fun entry =>
        fullnameOf format entry.deviceId := by
    rw [InsertionMap.values, List.map_map]
    refine List.map_congr_left fun row hmem => ?_
    have hget : (browse format me events).get row.1 = some row.2 := by
      rw [InsertionMap.get, Table.lookup_of_mem (browse format me events).unique hmem]
      rfl
    exact (get_browse_some hformat htells hget).2
  have hunique := (browse format me events).unique
  rw [Table.UniqueKeys, hnames] at hunique
  have hvalues : (browse format me events).values.Pairwise fun a b =>
      a.deviceId ≠ b.deviceId :=
    (List.pairwise_map.mp hunique).imp fun hne heq => hne (by rw [heq])
  refine List.pairwise_map.mpr ((hvalues.filter _).filterMap _ ?_)
  intro first second hne a ha b hb
  rw [← ((pairable_eq_some_iff networks).mp ha).1,
    ← ((pairable_eq_some_iff networks).mp hb).1]
  exact hne

/-- Whatever the devices of the network announce, in whatever parts, a node
offers to pair with just those others whose last word was that they show a code,
each once, under the name and at the best address that they announced; and it
reaches a device at all the addresses that it announced with its last port, and
itself at none. -/
theorem finds_what_was_announced (networks : List (BitVec 32 × BitVec 32))
    (me : DeviceId) (hformat : format.Hyphenated) {words : List Word}
    {events : List ServiceEvent}
    (htells : List.Forall₂ (Tells format) words events) :
    (∀ found, found ∈ pairable networks (browse format me events) me ↔
      found.deviceId ≠ me ∧
      (∃ last ∈ (said found.deviceId words).getLast?,
        last.pairingName = some found.name) ∧
      (rankWith networks (reachable (said found.deviceId words))).head? =
        some found.address) ∧
    ((pairable networks (browse format me events) me).map
      PairableDevice.deviceId).Nodup ∧
    (∀ device, device ≠ me →
      addressesOf networks (browse format me events) device =
        rankWith networks (reachable (said device words))) ∧
    addressesOf networks (browse format me events) me = [] :=
  ⟨fun _ => mem_pairable_browse networks hformat htells,
    nodup_pairable_browse networks hformat htells,
    fun _ => addressesOf_browse networks hformat htells,
    addressesOf_self networks hformat htells⟩

end Network

/-- A registration as it arrives with these addresses. -/
def arrived (format : UuidFormat) (registration : Registration)
    (addresses : List ScopedIp) : Service where
  fullname := fullnameOf format registration.deviceId
  port := registration.port
  property key := (registration.properties format).lookup key
  addresses := addresses

/-- A device on port 4000 that shows a code. -/
def kitchen : Registration := ⟨⟨1⟩, 4000, some "Kitchen"⟩

/-- It moves to port 4000, and its IPv6 address comes before the IPv4 one. -/
def kitchenMoves : List Word :=
  [.announces { kitchen with port := 3000 } [.v4 5], .announces kitchen [.v6 7 2],
    .announces kitchen [.v4 8]]

def kitchenEvents : List ServiceEvent :=
  [.resolved (arrived hyphenatedFormat { kitchen with port := 3000 } [.v4 5]),
    .resolved (arrived hyphenatedFormat kitchen [.v6 7 2]),
    .resolved (arrived hyphenatedFormat kitchen [.v4 8])]

theorem finds_what_was_announced_kitchen :
    ⟨⟨1⟩, "Kitchen", .v4 8 4000⟩ ∈
      pairable [] (browse hyphenatedFormat ⟨9⟩ kitchenEvents) ⟨9⟩ := by
  have hcarries : ∀ registration addresses, Carries hyphenatedFormat registration
      (arrived hyphenatedFormat registration addresses) :=
    fun _ _ => ⟨rfl, rfl, fun _ => rfl⟩
  have htells : List.Forall₂ (Tells hyphenatedFormat) kitchenMoves kitchenEvents :=
    .cons (.announces (hcarries _ [.v4 5]))
      (.cons (.announces (hcarries _ [.v6 7 2]))
        (.cons (.announces (hcarries _ [.v4 8])) .nil))
  have hfinds :=
    finds_what_was_announced [] ⟨9⟩ hyphenatedFormat_hyphenated htells
  exact (hfinds.1 _).mpr
    ⟨by decide, ⟨kitchen.announced [.v4 8], by decide, rfl⟩, by decide⟩

end Cled.Lan
