namespace ShaderBuild

/-- A programmable stage, or the root signature compiled beside the stages. -/
inductive Stage
  | vertex | pixel | hull | domain | geometry | compute | rootSignature
deriving DecidableEq, Repr, Inhabited

inductive Api
  | vulkan | d3d12
deriving DecidableEq, Repr, Inhabited

inductive Platform
  | windows | linux | macos | android
deriving DecidableEq, Repr, Inhabited

namespace Stage

def all : List Stage := [vertex, pixel, hull, domain, geometry, compute, rootSignature]

def name : Stage → String
  | vertex => "Vertex"
  | pixel => "Pixel"
  | hull => "Hull"
  | domain => "Domain"
  | geometry => "Geometry"
  | compute => "Compute"
  | rootSignature => "RootSignature"

def flagWord : Stage → String
  | vertex => "vertex"
  | pixel => "pixel"
  | hull => "hull"
  | domain => "domain"
  | geometry => "geometry"
  | compute => "compute"
  | rootSignature => "rootsignature"

/-- Position in `all`, which is also the value of the generated enumerator. -/
def index : Stage → Nat
  | vertex => 0
  | pixel => 1
  | hull => 2
  | domain => 3
  | geometry => 4
  | compute => 5
  | rootSignature => 6

def ofName? (s : String) : Option Stage := all.find? (·.name == s)

def ofFlagWord? (s : String) : Option Stage := all.find? (·.flagWord == s)

/-- Root signatures exist for D3D12 only; every other stage runs everywhere. -/
def runsOn (stage : Stage) (api : Api) : Bool := stage != rootSignature || api == .d3d12

end Stage

namespace Api

def all : List Api := [vulkan, d3d12]

def name : Api → String
  | vulkan => "Vulkan"
  | d3d12 => "D3D12"

def flagWord : Api → String
  | vulkan => "vulkan"
  | d3d12 => "d3d12"

def binaryExtension : Api → String
  | vulkan => "spv"
  | d3d12 => "dxil"

def ofName? (s : String) : Option Api := all.find? (·.name == s)

def ofFlagWord? (s : String) : Option Api := all.find? (·.flagWord == s)

end Api

namespace Platform

def all : List Platform := [windows, linux, macos, android]

def name : Platform → String
  | windows => "Windows"
  | linux => "Linux"
  | macos => "MacOS"
  | android => "Android"

def flagWord : Platform → String
  | windows => "windows"
  | linux => "linux"
  | macos => "macos"
  | android => "android"

def ofName? (s : String) : Option Platform := all.find? (·.name == s)

def ofFlagWord? (s : String) : Option Platform := all.find? (·.flagWord == s)

def current : Platform := linux

end Platform

/-- A set of stages, one bit each; the root signature has no bit. -/
structure StageMask where
  bits : UInt32
deriving DecidableEq, Repr, Inhabited

namespace StageMask

def empty : StageMask := ⟨0⟩

def ofStage : Stage → StageMask
  | .vertex => ⟨1⟩
  | .pixel => ⟨2⟩
  | .hull => ⟨4⟩
  | .domain => ⟨8⟩
  | .geometry => ⟨16⟩
  | .compute => ⟨32⟩
  | .rootSignature => ⟨0⟩

def union (a b : StageMask) : StageMask := ⟨a.bits ||| b.bits⟩

def contains (m : StageMask) (s : Stage) : Bool :=
  (ofStage s).bits != 0 && m.bits &&& (ofStage s).bits == (ofStage s).bits

def labels (m : StageMask) : List String :=
  [(Stage.vertex, "VERTEX"), (.pixel, "PIXEL"), (.hull, "HULL"), (.domain, "DOMAIN"),
    (.geometry, "GEOMETRY"), (.compute, "COMPUTE")].filterMap
      fun (s, label) => if m.contains s then some label else none

end StageMask

end ShaderBuild
