import Mathlib.Logic.Function.Basic
import SrtlaOutput.Engine.Defs

/-! The adapter table of the dock: what the network monitor enumerates, how a poll brings
the table and the links of a running output up to date, and what a check box does. -/

namespace Srtla
variable {F A : Type}

/-- An entry of the interface list of the system; `printed` is what `inet_ntop` gives. -/
structure Ifaddr where
  name : Option String
  family : Option Nat
  loopback : Bool := false
  up : Bool := true
  printed : Option String
  deriving DecidableEq, Repr

def afInet : Nat := 2
def afInet6 : Nat := 10

structure NetworkAdapter where
  id : String
  label : String
  address : String
  family : Nat := 0
  enabled : Bool := false
  operational : Bool := false
  deriving DecidableEq, Repr

/-- What an enumeration promises: distinct ids, and no adapter enabled by itself. -/
structure Enumeration where
  adapters : List NetworkAdapter
  distinct : (adapters.map (·.id)).Nodup
  optIn : ∀ a ∈ adapters, a.enabled = false

namespace NetworkMonitor

def scan (familiesSeen : List String) : List Ifaddr → List NetworkAdapter
  | [] => []
  | entry :: rest =>
    match entry.name, entry.family with
    | some name, some family =>
      let id := name ++ "/" ++ toString family
      if entry.loopback || (family != afInet && family != afInet6) then scan familiesSeen rest
      else if familiesSeen.contains id then scan familiesSeen rest
      else
        -- an address that does not print uses its id up all the same
        match entry.printed with
        | none => scan (id :: familiesSeen) rest
        | some address =>
          { id, label := name, address, family, operational := entry.up } ::
            scan (id :: familiesSeen) rest
    | _, _ => scan familiesSeen rest

theorem scan_spec (familiesSeen : List String) (entries : List Ifaddr) :
    ((scan familiesSeen entries).map (·.id)).Nodup ∧
      ∀ a ∈ scan familiesSeen entries, a.id ∉ familiesSeen ∧ a.enabled = false := by
  induction entries generalizing familiesSeen with
  | nil => exact ⟨List.nodup_nil, by simp [scan]⟩
  | cons entry rest ih =>
    obtain ⟨hdistinct, hfresh⟩ := ih familiesSeen
    unfold scan
    rcases entry.name with _ | name
    · exact ih familiesSeen
    rcases entry.family with _ | family
    · exact ih familiesSeen
    dsimp only
    obtain ⟨id, hid⟩ : ∃ id, name ++ "/" ++ toString family = id := ⟨_, rfl⟩
    rw [hid]
    split_ifs with hskip hseen
    · exact ih familiesSeen
    · exact ih familiesSeen
    have hnew : id ∉ familiesSeen := by simpa using hseen
    have hlater : ∀ a ∈ scan (id :: familiesSeen) rest, a.id ∉ familiesSeen ∧ a.enabled = false := by
      intro a ha
      obtain ⟨hnot, hoff⟩ := (ih (id :: familiesSeen)).2 a ha
      exact ⟨fun hmem => hnot (List.mem_cons_of_mem id hmem), hoff⟩
    rcases entry.printed with _ | address
    · exact ⟨(ih (id :: familiesSeen)).1, hlater⟩
    · constructor
      · rw [List.map_cons, List.nodup_cons]
        refine ⟨?_, (ih (id :: familiesSeen)).1⟩
        intro hmem
        obtain ⟨a, ha, heq⟩ := List.mem_map.mp hmem
        apply ((ih (id :: familiesSeen)).2 a ha).1
        rw [heq]
        exact List.mem_cons_self
      · intro a ha
        rcases List.mem_cons.mp ha with rfl | hrest
        · exact ⟨hnew, rfl⟩
        · exact hlater a hrest

def enumerate (entries : Option (List Ifaddr)) : Enumeration :=
  let adapters := scan [] (entries.getD [])
  { adapters
    distinct := (scan_spec [] (entries.getD [])).1
    optIn := fun a ha => ((scan_spec [] (entries.getD [])).2 a ha).2 }

example : (enumerate (some
    [{ name := some "lo", family := some 2, loopback := true, printed := some "127.0.0.1" },
      { name := some "eth0", family := some 2, printed := some "10.0.0.1" },
      { name := some "eth0", family := some 2, printed := some "10.0.0.9" }])).adapters.map (·.address) =
    ["10.0.0.1"] := by decide

end NetworkMonitor

/-- `stable_link_id`: the hash of the bytes of an adapter id. -/
def stableLinkId (id : String) : UInt64 :=
  (id.toList.flatMap String.utf8EncodeChar).foldl
    (fun hash c => (hash ^^^ c.toUInt64) * 1099511628211) 1469598103934665603

def enumerateLinks (enabledLinks : Option (String → Bool)) (adapters : List NetworkAdapter) :
    List EngineLinkConfig :=
  adapters.map fun a =>
    { id := stableLinkId a.id
      label := a.label ++ " / " ++ a.address
      address := a.address
      enabled := enabledLinks.any (· a.id) }

structure LinkRow where
  key : String
  checked : Bool
  deriving DecidableEq, Repr

structure SrtlaDock where
  links : List LinkRow := []
  selected : String → Option Bool

namespace SrtlaDock

def tryEmplace (selected : String → Option Bool) (id : String) (enabled : Bool) :
    String → Option Bool :=
  match selected id with
  | some _ => selected
  | none => Function.update selected id (some enabled)

/-- The poll on the dock's side. The rows are written in place where the topology is the
same and built anew otherwise; what they show does not depend on it. -/
def refresh (d : SrtlaDock) (adapters : List NetworkAdapter) : SrtlaDock :=
  let selected := adapters.foldl (fun selected a => tryEmplace selected a.id a.enabled) d.selected
  { links := adapters.map fun a => { key := a.id, checked := (selected a.id).getD a.enabled }
    selected }

def select (d : SrtlaDock) (key : String) (enabled : Bool) : SrtlaDock :=
  { links := d.links.map fun row => if row.key = key then { row with checked := enabled } else row
    selected := Function.update d.selected key (some enabled) }

def enabledLinks (d : SrtlaDock) (id : String) : Bool := d.selected id == some true

end SrtlaDock

structure DockedOutput (F A : Type) where
  dock : SrtlaDock
  engine : Engine F A

/-- A poll enumerates twice, once for the table and once for the engine. -/
inductive DockEvent (F A : Type)
  | refreshAdapters (table output : Enumeration)
  | itemChanged (key : String) (enabled : Bool)
  | call (i : Input F A)

namespace DockedOutput
variable [IpAddr A]

def refreshAdapters (s : DockedOutput F A) (table output : Enumeration) : DockedOutput F A :=
  { dock := s.dock.refresh table.adapters
    engine := (s.engine.updateAdapters (.array (enumerateLinks none output.adapters))).1 }

/-- A check box that was changed. It is set back when the engine refuses. -/
def itemChanged (s : DockedOutput F A) (key : String) (enabled : Bool) : DockedOutput F A × Int :=
  let sent := s.engine.setLinkEnabled (stableLinkId key) enabled
  if sent.2 ≠ 0 then ({ s with engine := sent.1 }, sent.2)
  else ({ dock := s.dock.select key enabled, engine := sent.1 }, 0)

variable [F64 F]

def started (config : EngineConfig) (dock : SrtlaDock) (found : Enumeration) : DockedOutput F A :=
  let links := enumerateLinks (some dock.enabledLinks) found.adapters
  { dock, engine := (Engine.create { config with links }).start.1 }

def next (s : DockedOutput F A) : DockEvent F A → Option (DockedOutput F A)
  | .refreshAdapters table output => some (s.refreshAdapters table output)
  | .itemChanged key enabled =>
    if s.dock.links.any fun row => row.key == key && row.checked != enabled then
      some (s.itemChanged key enabled).1
    else none
  | .call i => some { s with engine := (s.engine.step i).1 }

end DockedOutput
end Srtla
