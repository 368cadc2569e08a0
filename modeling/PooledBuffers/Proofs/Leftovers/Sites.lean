import PooledBuffers.Proofs.Leftovers.Regions
import PooledBuffers.Proofs.Leftovers.Streams
import PooledBuffers.Proofs.Leftovers.Workspaces

/-!
# Nothing left behind becomes visible

A site is everything that works on two pools: objects on a pool of elements, objects on a pool of
bytes, and the devices that work on bytes only, which are region stores, inlets and outlets. Its
transcript holds what its user ever sees: the answer to each step, and after each step all that any
object or device shows.

* `Device.perform`, `Site.perform` — the steps and their answers;
* `Site.Alike.perform` — one step on sites that are alike;
* `Site.leftovers_stay_hidden` — two sites that start on pools with other leftovers have the same
  transcript, whatever the steps.
-/

namespace PooledBuffers

open PooledBuffers.Stream (Inlet Outlet)

/-! ## Devices -/

/-- What works on bytes only. -/
inductive Device where
  | ofStore (store : RegionStore)
  | ofInlet (inlet : Inlet)
  | ofOutlet (outlet : Outlet)

namespace Device

/-- How a device is made. -/
inductive Recipe where
  | store (length : Nat)
  | lentStore (cells : Array UInt8)
  | inlet (source : Stream.Source) (config : Stream.Config)
  | outlet (sink : Stream.Sink) (config : Stream.Config)

/-- Operations on a device of one kind. -/
inductive Action : Type 1 where
  | store (action : RegionStore.Action)
  | span (id : Nat)
  | spanLength (id : Nat)
  | itemCount (id : Nat)
  | readValue (τ : Type) [Layout τ] (id index : Nat)
  | ensure (needed : Nat)
  | take (count : Nat)
  | takeByte
  | write (run : Array UInt8)
  | add (value : UInt8)
  | acquire (count : Nat) (content : Array UInt8)
  | flush

/-- What a device answers. -/
inductive Answer : Type 1 where
  | reply (reply : Reply UInt8)
  | outcome {τ : Type} (outcome : Except Error τ)
  /-- There is no such device, or it has no such operation. -/
  | gone

/-- All that a device shows to its user. -/
inductive View where
  | store (bytes : Array UInt8) (regions : List (Except Error (Array UInt8) × Except Error Nat))
  | inlet (source : Stream.Source) (available consumed : Nat)
  | outlet (sink : Stream.Sink) (buffered flushed : Nat)

def make (pool : Pool UInt8) : Recipe → Except Error (Device × Pool UInt8)
  | .store length =>
    let (store, pool) := RegionStore.withCapacity pool length
    .ok (.ofStore store, pool)
  | .lentStore cells => .ok (.ofStore (RegionStore.onMemory cells), pool)
  | .inlet source config => do
    let (inlet, pool) ← Inlet.ofConfig source config pool
    return (.ofInlet inlet, pool)
  | .outlet sink config => do
    let (outlet, pool) ← Outlet.ofConfig sink config pool
    return (.ofOutlet outlet, pool)

/-- Carries out an operation; one for another kind of device changes nothing. -/
def perform (device : Device) (pool : Pool UInt8) (action : Action) :
    Answer × Device × Pool UInt8 :=
  match device, action with
  | .ofStore store, .store action =>
    let (reply, store, pool) := store.perform pool action
    (.reply reply, .ofStore store, pool)
  | .ofStore store, .span id => (.outcome (store.span id), .ofStore store, pool)
  | .ofStore store, .spanLength id => (.outcome (store.spanLength id), .ofStore store, pool)
  | .ofStore store, .itemCount id => (.outcome (store.itemCount id), .ofStore store, pool)
  | .ofStore store, @Action.readValue τ _ id index =>
    (.outcome (store.readValue τ id index), .ofStore store, pool)
  | .ofInlet inlet, .ensure needed =>
    let (outcome, inlet) := inlet.ensure needed
    (.outcome outcome, .ofInlet inlet, pool)
  | .ofInlet inlet, .take count =>
    let (outcome, inlet) := inlet.take count
    (.outcome outcome, .ofInlet inlet, pool)
  | .ofInlet inlet, .takeByte =>
    let (outcome, inlet) := inlet.takeByte
    (.outcome outcome, .ofInlet inlet, pool)
  | .ofOutlet outlet, .write run =>
    let (outcome, outlet, pool) := outlet.write run pool
    (.outcome outcome, .ofOutlet outlet, pool)
  | .ofOutlet outlet, .add value =>
    let (outcome, outlet, pool) := outlet.add value pool
    (.outcome outcome, .ofOutlet outlet, pool)
  | .ofOutlet outlet, .acquire count content =>
    let (outcome, outlet, pool) := outlet.acquire count content pool
    (.outcome outcome, .ofOutlet outlet, pool)
  | .ofOutlet outlet, .flush =>
    let (outcome, outlet, pool) := outlet.flush pool
    (.outcome outcome, .ofOutlet outlet, pool)
  | device, _ => (.gone, device, pool)

/-- Ends a device and answers what was lent to it. -/
def drop (device : Device) (pool : Pool UInt8) : Loan × Pool UInt8 :=
  match device with
  | .ofStore store =>
    let (store, pool) := store.dispose pool
    ({ memory := store.writer.caller }, pool)
  | .ofInlet inlet =>
    let (source, pool) := inlet.close pool
    ({ source := some source }, pool)
  | .ofOutlet outlet =>
    let (sink, pool) := outlet.abandon pool
    ({ sink := some sink }, pool)

/-- Ends a device with a word about its last flush. -/
def finish (device : Device) (pool : Pool UInt8) : Except Error Unit × Loan × Pool UInt8 :=
  match device with
  | .ofOutlet outlet =>
    let (outcome, sink, pool) := outlet.close pool
    (outcome, { sink := some sink }, pool)
  | device => (.ok (), device.drop pool)

def view : Device → View
  | .ofStore store =>
    .store store.bytes
      ((List.range store.regionCount).map fun id => (store.span id, store.itemCount id))
  | .ofInlet inlet => .inlet inlet.source inlet.available inlet.consumed
  | .ofOutlet outlet => .outlet outlet.sink outlet.buffered outlet.flushed

instance : Describe Device where
  describe
    | .ofStore store => describe store
    | .ofInlet inlet => describe inlet
    | .ofOutlet outlet => describe outlet

/-- Devices of one kind that are alike. -/
inductive Alike : Device → Device → Prop
  | store {store other : RegionStore} (stores : store.Alike other) :
    Alike (.ofStore store) (.ofStore other)
  | inlet {inlet other : Inlet} (inlets : inlet.Alike other) :
    Alike (.ofInlet inlet) (.ofInlet other)
  | outlet {outlet other : Outlet} (outlets : outlet.Alike other) :
    Alike (.ofOutlet outlet) (.ofOutlet other)

variable {device other : Device} {pool pool' : Pool UInt8}

theorem alike_make (pools : pool.Alike pool') (recipe : Recipe) :
    SameOutcome (OnAlike Alike) (make pool recipe) (make pool' recipe) := by
  cases recipe with
  | store length =>
    obtain ⟨stores, after⟩ := RegionStore.alike_withCapacity pools length
    exact .done ⟨.store stores, after⟩
  | lentStore cells => exact .done ⟨.store (RegionStore.alike_onMemory cells), pools⟩
  | inlet source config =>
    exact (Stream.Inlet.alike_ofConfig pools source config).bind fun _ _ both =>
      .done ⟨.inlet both.object, both.pool⟩
  | outlet sink config =>
    exact (Stream.Outlet.alike_ofConfig pools sink config).bind fun _ _ both =>
      .done ⟨.outlet both.object, both.pool⟩

namespace Alike

theorem view (alike : device.Alike other) : device.view = other.view := by
  cases alike with
  | store stores =>
    simp only [Device.view, stores.bytes, stores.regionCount, stores.span, stores.itemCount]
  | inlet inlets =>
    obtain ⟨chunk, chunks, order, rfl⟩ := inlets
    rfl
  | outlet outlets =>
    simp only [Device.view, Outlet.buffered, outlets.sink, outlets.chunk.position, outlets.flushed]

theorem describe (alike : device.Alike other) : describe device = describe other := by
  cases alike with
  | store stores =>
    obtain ⟨writer, writers, rfl⟩ := stores
    rfl
  | inlet inlets =>
    simp only [PooledBuffers.describe, inlets.chunkSize, inlets.available, inlets.consumed]
  | outlet outlets =>
    simp only [PooledBuffers.describe, Outlet.buffered, outlets.chunkSize, outlets.chunk.position,
      outlets.flushed]

theorem perform (alike : device.Alike other) (pools : pool.Alike pool') (action : Action) :
    SameAnswer Alike (device.perform pool action) (other.perform pool' action) := by
  have gone : SameAnswer Alike (Answer.gone, device, pool) (Answer.gone, other, pool') :=
    ⟨rfl, alike, pools⟩
  cases alike with
  | store stores =>
    cases action with
    | store action =>
      obtain ⟨reply, stores, pools⟩ := stores.perform pools action
      exact ⟨congrArg Answer.reply reply, .store stores, pools⟩
    | span id => exact ⟨congrArg Answer.outcome (stores.span id), .store stores, pools⟩
    | spanLength id => exact ⟨congrArg Answer.outcome (stores.spanLength id), .store stores, pools⟩
    | itemCount id => exact ⟨congrArg Answer.outcome (stores.itemCount id), .store stores, pools⟩
    | readValue τ id index =>
      exact ⟨congrArg Answer.outcome (stores.readValue τ id index), .store stores, pools⟩
    | _ => exact gone
  | inlet inlets =>
    cases action with
    | ensure needed =>
      obtain ⟨outcome, inlets⟩ := inlets.ensure needed
      exact ⟨congrArg Answer.outcome outcome, .inlet inlets, pools⟩
    | take count =>
      obtain ⟨outcome, inlets⟩ := inlets.take count
      exact ⟨congrArg Answer.outcome outcome, .inlet inlets, pools⟩
    | takeByte =>
      obtain ⟨outcome, inlets⟩ := inlets.takeByte
      exact ⟨congrArg Answer.outcome outcome, .inlet inlets, pools⟩
    | _ => exact gone
  | outlet outlets =>
    cases action with
    | write run =>
      obtain ⟨outcome, outlets, pools⟩ := outlets.write pools run
      exact ⟨congrArg Answer.outcome outcome, .outlet outlets, pools⟩
    | add value =>
      obtain ⟨outcome, outlets, pools⟩ := outlets.add pools value
      exact ⟨congrArg Answer.outcome outcome, .outlet outlets, pools⟩
    | acquire count content =>
      obtain ⟨outcome, outlets, pools⟩ := outlets.acquire pools count content
      exact ⟨congrArg Answer.outcome outcome, .outlet outlets, pools⟩
    | flush =>
      obtain ⟨outcome, outlets, pools⟩ := outlets.flush pools
      exact ⟨congrArg Answer.outcome outcome, .outlet outlets, pools⟩
    | _ => exact gone

theorem drop (alike : device.Alike other) (pools : pool.Alike pool') :
    (device.drop pool).1 = (other.drop pool').1 ∧
      (device.drop pool).2.Alike (other.drop pool').2 := by
  cases alike with
  | store stores =>
    obtain ⟨released, after⟩ := stores.dispose pools
    exact ⟨congrArg (fun caller => ({ memory := caller } : Loan)) released.writer.caller, after⟩
  | inlet inlets =>
    obtain ⟨source, after⟩ := inlets.close pools
    exact ⟨congrArg (fun source => ({ source := some source } : Loan)) source, after⟩
  | outlet outlets =>
    obtain ⟨sink, after⟩ := outlets.abandon pools
    exact ⟨congrArg (fun sink => ({ sink := some sink } : Loan)) sink, after⟩

theorem finish (alike : device.Alike other) (pools : pool.Alike pool') :
    (device.finish pool).1 = (other.finish pool').1 ∧
      (device.finish pool).2.1 = (other.finish pool').2.1 ∧
      (device.finish pool).2.2.Alike (other.finish pool').2.2 := by
  have dropped := alike.drop pools
  cases alike with
  | store stores => exact ⟨rfl, dropped⟩
  | inlet inlets => exact ⟨rfl, dropped⟩
  | outlet outlets =>
    obtain ⟨outcome, sink, after⟩ := outlets.close pools
    exact ⟨outcome, congrArg (fun sink => ({ sink := some sink } : Loan)) sink, after⟩

end Alike

end Device

/-! ## Sites -/

/-- Everything that works on a pool of elements and a pool of bytes. -/
structure Site (α : Type) where
  elements : Workspace α
  bytes : Workspace UInt8
  /-- The devices by name; they work on the pool of bytes. -/
  devices : List (String × Device) := []

namespace Site

variable {α : Type}

/-- A site where there is nothing yet but its pools. -/
def on (elements : Pool α) (bytes : Pool UInt8) : Site α where
  elements := { pool := elements }
  bytes := { pool := bytes }

/-- One step of the user of a site. -/
inductive Step (α : Type) : Type 1 where
  | onElements (step : Workspace.Step α)
  | onBytes (step : Workspace.Step UInt8)
  | writeValue {τ : Type} [Layout τ] (name : String) (order : ByteOrder) (value : τ)
  | readValue (τ : Type) [Layout τ] (name : String) (order : ByteOrder) (movePosition : Bool)
  /-- Makes a device. One that had the name before ends once the new one is there. -/
  | make (name : String) (recipe : Device.Recipe)
  | use (name : String) (action : Device.Action)
  | drop (name : String)
  | finish (name : String)

/-- What a step answers. -/
inductive Answer (α : Type) : Type 1 where
  | ofElements (answer : Workspace.Answer α)
  | ofBytes (answer : Workspace.Answer UInt8)
  /-- The outcome with a value of some type, if there is such a writer. -/
  | typed {τ : Type} (outcome : Option (Except Error τ))
  | made (outcome : Except Error Unit)
  | used (answer : Device.Answer)
  /-- What was lent to the device, if there was one. -/
  | dropped (loan : Option Loan)
  | finished (outcome : Option (Except Error Unit × Loan))

/-- The devices under other names. -/
def others (site : Site α) (name : String) : List (String × Device) :=
  site.devices.filter fun entry => entry.1 != name

/-- The site with another pool of bytes and other devices. -/
def withDevices (site : Site α) (pool : Pool UInt8) (devices : List (String × Device)) : Site α :=
  { site with bytes := { site.bytes with pool := pool }, devices := devices }

/-- Ends the device of a name. -/
def drop (site : Site α) (name : String) : Option Loan × Site α :=
  match site.devices.lookup name with
  | none => (none, site)
  | some device =>
    let (loan, pool) := device.drop site.bytes.pool
    (some loan, site.withDevices pool (site.others name))

/-- Ends the device of a name, with a word about its last flush. -/
def finish (site : Site α) (name : String) : Option (Except Error Unit × Loan) × Site α :=
  match site.devices.lookup name with
  | none => (none, site)
  | some device =>
    let (outcome, loan, pool) := device.finish site.bytes.pool
    (some (outcome, loan), site.withDevices pool (site.others name))

/-- Makes a device under a name. -/
def make (site : Site α) (name : String) (recipe : Device.Recipe) : Except Error (Site α) := do
  let (device, pool) ← Device.make site.bytes.pool recipe
  let (_, site) := (site.withDevices pool site.devices).drop name
  return site.withDevices site.bytes.pool ((name, device) :: site.others name)

/-- Carries out an operation on the device of a name. -/
def use (site : Site α) (name : String) (action : Device.Action) : Device.Answer × Site α :=
  match site.devices.lookup name with
  | none => (.gone, site)
  | some device =>
    let (answer, device, pool) := device.perform site.bytes.pool action
    (answer, site.withDevices pool ((name, device) :: site.others name))

/-- Carries out a step. -/
def perform [Element α] [BEq α] (site : Site α) : Step α → Answer α × Site α
  | .onElements step =>
    (.ofElements (site.elements.answer step),
      { site with elements := site.elements.step step })
  | .onBytes step =>
    (.ofBytes (site.bytes.answer step), { site with bytes := site.bytes.step step })
  | @Step.writeValue _ τ _ name order value =>
    let (outcome, bytes) := site.bytes.writeValue (τ := τ) name order value
    (.typed outcome, { site with bytes := bytes })
  | @Step.readValue _ τ _ name order movePosition =>
    let (outcome, bytes) := site.bytes.readValue (τ := τ) name order movePosition
    (.typed outcome, { site with bytes := bytes })
  | .make name recipe =>
    match site.make name recipe with
    | .error e => (.made (.error e), site)
    | .ok next => (.made (.ok ()), next)
  | .use name action =>
    let (answer, next) := site.use name action
    (.used answer, next)
  | .drop name =>
    let (loan, next) := site.drop name
    (.dropped loan, next)
  | .finish name =>
    let (outcome, next) := site.finish name
    (.finished outcome, next)

/-- All that the objects and devices of a site show, by name, and in words. -/
structure View (α : Type) where
  elements : List (String × Object.View α × String)
  bytes : List (String × Object.View UInt8 × String)
  devices : List (String × Device.View × String)

def view [Describe α] (site : Site α) : View α where
  elements := site.elements.view
  bytes := site.bytes.view
  devices := site.devices.map fun (name, device) => (name, device.view, describe device)

/-- All that the user of a site ever sees: step by step, the answer and what is shown then. -/
def transcript [Element α] [BEq α] [Describe α] : Site α → List (Step α) → List (Answer α × View α)
  | _, [] => []
  | site, step :: rest =>
    let (answer, next) := site.perform step
    (answer, next.view) :: transcript next rest

/-! ### Steps that stay within what was blanked -/

/-- How many cells were blanked for each block, in both workspaces. -/
structure Grants where
  elements : String → Nat := fun _ => 0
  bytes : String → Nat := fun _ => 0

def Step.Within (grants : Grants) : Step α → Prop
  | .onElements step => step.Within grants.elements
  | .onBytes step => step.Within grants.bytes
  | _ => True

def Step.grants (grants : Grants) : Step α → Grants
  | .onElements step => { grants with elements := step.grants grants.elements }
  | .onBytes step => { grants with bytes := step.grants grants.bytes }
  | _ => grants

/-- Steps each of which asks for blanked memory only. -/
def Within : Grants → List (Step α) → Prop
  | _, [] => True
  | grants, step :: rest => step.Within grants ∧ Within (step.grants grants) rest

/-! ### Sites that are alike -/

/-- Sites on pools that are alike, with objects and devices of the same names that are alike. -/
structure Alike (grants : Grants) (site other : Site α) : Prop where
  elements : site.elements.Alike grants.elements other.elements
  bytes : site.bytes.Alike grants.bytes other.bytes
  devices : SameNames (fun _ => Device.Alike) site.devices other.devices

variable {grants : Grants} {site other : Site α}

theorem alike_on {elements elements' : Pool α} {bytes bytes' : Pool UInt8}
    (same : elements.Alike elements') (same' : bytes.Alike bytes') :
    (on elements bytes).Alike grants (on elements' bytes') :=
  ⟨⟨same, .nil⟩, ⟨same', .nil⟩, .nil⟩

namespace Alike

theorem view [Describe α] (alike : site.Alike grants other) : site.view = other.view := by
  have devices := alike.devices.map_eq
    (fun entry => (entry.1, entry.2.view, describe entry.2)) fun name _ _ devices => by
      simp only [devices.view, devices.describe]
  simp only [Site.view, alike.elements.view, alike.bytes.view]
  exact congrArg _ devices

theorem others (alike : site.Alike grants other) (name : String) :
    SameNames (fun _ => Device.Alike) (site.others name) (other.others name) :=
  alike.devices.without fun _ _ _ _ devices => devices

theorem withDevices (alike : site.Alike grants other) {pool pool' : Pool UInt8}
    (pools : pool.Alike pool') {devices devices' : List (String × Device)}
    (same : SameNames (fun _ => Device.Alike) devices devices') :
    (site.withDevices pool devices).Alike grants (other.withDevices pool' devices') :=
  ⟨alike.elements, ⟨pools, alike.bytes.objects⟩, same⟩

theorem drop (alike : site.Alike grants other) (name : String) :
    (site.drop name).1 = (other.drop name).1 ∧
      (site.drop name).2.Alike grants (other.drop name).2 := by
  have found := alike.devices.lookup name
  have rest := alike.others name
  unfold Site.drop
  generalize site.devices.lookup name = device at found ⊢
  generalize other.devices.lookup name = device' at found ⊢
  cases found with
  | none => exact ⟨rfl, alike⟩
  | some devices =>
    obtain ⟨loan, pools⟩ := devices.drop alike.bytes.pool
    exact ⟨congrArg some loan, alike.withDevices pools rest⟩

theorem finish (alike : site.Alike grants other) (name : String) :
    (site.finish name).1 = (other.finish name).1 ∧
      (site.finish name).2.Alike grants (other.finish name).2 := by
  have found := alike.devices.lookup name
  have rest := alike.others name
  unfold Site.finish
  generalize site.devices.lookup name = device at found ⊢
  generalize other.devices.lookup name = device' at found ⊢
  cases found with
  | none => exact ⟨rfl, alike⟩
  | some devices =>
    obtain ⟨outcome, loan, pools⟩ := devices.finish alike.bytes.pool
    exact ⟨congrArg some (Prod.ext outcome loan), alike.withDevices pools rest⟩

theorem make (alike : site.Alike grants other) (name : String) (recipe : Device.Recipe) :
    SameOutcome (Site.Alike grants) (site.make name recipe) (other.make name recipe) := by
  unfold Site.make
  refine (Device.alike_make alike.bytes.pool recipe).bind ?_
  rintro ⟨device, pool⟩ ⟨device', pool'⟩ ⟨devices, pools⟩
  obtain ⟨-, ended⟩ := (alike.withDevices pools alike.devices).drop name
  exact .done (ended.withDevices ended.bytes.pool ((ended.others name).put devices))

theorem use (alike : site.Alike grants other) (name : String) (action : Device.Action) :
    (site.use name action).1 = (other.use name action).1 ∧
      (site.use name action).2.Alike grants (other.use name action).2 := by
  have found := alike.devices.lookup name
  have rest := alike.others name
  unfold Site.use
  generalize site.devices.lookup name = device at found ⊢
  generalize other.devices.lookup name = device' at found ⊢
  cases found with
  | none => exact ⟨rfl, alike⟩
  | some devices =>
    obtain ⟨answer, devices, pools⟩ := devices.perform alike.bytes.pool action
    exact ⟨answer, alike.withDevices pools (rest.put devices)⟩

variable [Element α] [BEq α]

/-- One step: the same answer, and sites alike. -/
theorem perform (alike : site.Alike grants other) {step : Step α} (within : step.Within grants) :
    (site.perform step).1 = (other.perform step).1 ∧
      (site.perform step).2.Alike (step.grants grants) (other.perform step).2 := by
  cases step with
  | onElements step =>
    obtain ⟨answer, elements⟩ := alike.elements.step within
    exact ⟨congrArg Answer.ofElements answer, elements, alike.bytes, alike.devices⟩
  | onBytes step =>
    obtain ⟨answer, bytes⟩ := alike.bytes.step within
    exact ⟨congrArg Answer.ofBytes answer, alike.elements, bytes, alike.devices⟩
  | writeValue name order value =>
    obtain ⟨outcome, bytes⟩ := alike.bytes.writeValue name order value
    exact ⟨congrArg Answer.typed outcome, alike.elements, bytes, alike.devices⟩
  | readValue τ name order movePosition =>
    obtain ⟨outcome, bytes⟩ := alike.bytes.readValue (τ := τ) name order movePosition
    exact ⟨congrArg Answer.typed outcome, alike.elements, bytes, alike.devices⟩
  | make name recipe =>
    have made := alike.make name recipe
    simp only [Site.perform]
    generalize site.make name recipe = outcome at made ⊢
    generalize other.make name recipe = outcome' at made ⊢
    cases made with
    | refused refusal => exact ⟨rfl, alike⟩
    | done made => exact ⟨rfl, made⟩
  | use name action =>
    obtain ⟨answer, next⟩ := alike.use name action
    exact ⟨congrArg Answer.used answer, next⟩
  | drop name =>
    obtain ⟨loan, next⟩ := alike.drop name
    exact ⟨congrArg Answer.dropped loan, next⟩
  | finish name =>
    obtain ⟨outcome, next⟩ := alike.finish name
    exact ⟨congrArg Answer.finished outcome, next⟩

theorem transcript [Describe α] (steps : List (Step α)) :
    ∀ {grants : Grants} {site other : Site α}, site.Alike grants other → Within grants steps →
      site.transcript steps = other.transcript steps := by
  induction steps with
  | nil =>
    intro grants site other _ _
    rfl
  | cons step rest ih =>
    intro grants site other alike within
    obtain ⟨answer, next⟩ := alike.perform within.1
    simp only [Site.transcript, answer, next.view, ih next within.2]

end Alike

/-- Two sites that start on pools with other leftovers have the same transcript: every answer, and
all that any object or device shows at any time, is the same in both. -/
theorem leftovers_stay_hidden [Element α] [BEq α] [Describe α] {elements elements' : Pool α}
    {bytes bytes' : Pool UInt8} (same : elements.Alike elements') (same' : bytes.Alike bytes')
    {steps : List (Step α)} (within : Within {} steps) :
    (on elements bytes).transcript steps = (on elements' bytes').transcript steps :=
  (alike_on same same').transcript steps within

/-- An idle array, once full of sevens and once blank, that a cleared block, a list that takes up
what it has to spare, a writer and an inlet rent. -/
theorem leftovers_stay_hidden_sevens :
    let used : Pool UInt8 := Pool.standard.giveBack ⟨.replicate 16 7, some 0⟩
    let blank : Pool UInt8 := Pool.standard.giveBack ⟨.replicate 16 0, some 0⟩
    let steps : List (Step UInt8) :=
      [.onElements (.create "block" (.block 3 true)),
        .onElements (.act "block" (.block (.resize 2))), .onElements (.drop "block"),
        .onElements (.create "list" (.list 4)), .onElements (.act "list" (.list (.reserve 9))),
        .onBytes (.create "writer" (.lentWriter #[1] none)),
        .onBytes (.act "writer" (.writer (.acquire 5 false #[2]))), .onBytes (.drop "writer"),
        .make "inlet" (.inlet ⟨[.data [3, 4, 5]], #[]⟩ ⟨8⟩), .use "inlet" (.take 2)]
    (used.rent 4).1.cells ≠ (blank.rent 4).1.cells ∧ used.Alike blank ∧ Within {} steps ∧
      (on used used).transcript steps = (on blank blank).transcript steps := by
  intro used blank steps
  have fits : Lease.Fits (⟨.replicate 16 7, some 0⟩ : Lease UInt8) := by
    rintro _ ⟨⟩
    rfl
  have leases : Lease.Alike 0 (⟨.replicate 16 7, some 0⟩ : Lease UInt8)
      ⟨.replicate 16 0, some 0⟩ := ⟨rfl, ⟨rfl, by simp⟩, fits⟩
  have alike : used.Alike blank :=
    (Pool.Alike.refl Pool.reachable_standard.sound).giveBack leases
  have within : Within {} steps :=
    ⟨rfl, show 2 ≤ 3 by decide, trivial, trivial, show 9 ≤ Size.top by decide, trivial, trivial,
      trivial, trivial, trivial, trivial⟩
  exact ⟨by decide, alike, within, leftovers_stay_hidden alike alike within⟩

end Site

end PooledBuffers
