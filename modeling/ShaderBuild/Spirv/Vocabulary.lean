namespace ShaderBuild.Spirv

def within (low high : UInt32) (w : UInt32) : Bool := low ≤ w && w ≤ high

namespace Opcode

def source : UInt32 := 3
def name : UInt32 := 5
def memberName : UInt32 := 6
def line : UInt32 := 8
def noLine : UInt32 := 317
def extension : UInt32 := 10
def instructionSet : UInt32 := 11
def memoryModel : UInt32 := 14
def entryPoint : UInt32 := 15
def executionMode : UInt32 := 16
def executionModeById : UInt32 := 331
def capability : UInt32 := 17
def function : UInt32 := 54
def functionEnd : UInt32 := 56
def functionCall : UInt32 := 57
def bindVariable : UInt32 := 59
def load : UInt32 := 61
def store : UInt32 := 62
def atomicLoad : UInt32 := 227
def atomicStore : UInt32 := 228
def accessChain : UInt32 := 65
def decorate : UInt32 := 71
def memberDecorate : UInt32 := 72

/-- Source texts, names and other things that do not change what a module computes. -/
def isDebug (op : UInt32) : Bool := within 2 7 op || op == 330

def isAnnotation (op : UInt32) : Bool :=
  within 71 75 op || op == 332 || op == 5632 || op == 5633

def isType (op : UInt32) : Bool := within 19 39 op || op == 4472 || op == 5341

def isConstant (op : UInt32) : Bool := within 41 51 op || op == 323

def reads (op : UInt32) : Bool := op == load || op == atomicLoad || within 229 242 op

def writes (op : UInt32) : Bool := op == store || op == atomicStore

/-- Instructions among the global ones that say nothing about bindings. -/
def isSilent (op : UInt32) : Bool := op == 1 || op == line || op == 12 || op == noLine

def isGlobal (op : UInt32) : Bool :=
  isType op || isConstant op || op == bindVariable || isSilent op

end Opcode

namespace StorageClass

def uniformConstant : UInt32 := 0
def uniform : UInt32 := 2
def storageBuffer : UInt32 := 12

/-- Variables of these classes are bound from outside. -/
def isBound (c : UInt32) : Bool := c == uniformConstant || c == uniform || c == storageBuffer

def isKnown (c : UInt32) : Bool :=
  c ≤ 12 || [4172, 5068, 5076, 5328, 5329, 5338, 5339, 5342, 5343, 5349, 5385, 5402, 5605,
    5936, 5937].contains c

end StorageClass

namespace ExecutionModel

def name? : UInt32 → Option String
  | 0 => some "Vertex"
  | 1 => some "TessellationControl"
  | 2 => some "TessellationEvaluation"
  | 3 => some "Geometry"
  | 4 => some "Fragment"
  | 5 => some "GLCompute"
  | 6 => some "Kernel"
  | 5267 => some "TaskNV"
  | 5268 => some "MeshNV"
  | 5313 => some "RayGenerationNV"
  | 5314 => some "IntersectionNV"
  | 5315 => some "AnyHitNV"
  | 5316 => some "ClosestHitNV"
  | 5317 => some "MissNV"
  | 5318 => some "CallableNV"
  | 5364 => some "TaskEXT"
  | 5365 => some "MeshEXT"
  | _ => none

end ExecutionModel

namespace ExecutionMode

def isKnown (m : UInt32) : Bool :=
  within 0 12 m || within 14 31 m || within 33 39 m || within 4169 4171 m || m == 4421 ||
    m == 4446 || within 4459 4463 m || m == 5017 || m == 5027 || m == 5069 || within 5071 5073 m ||
    m == 5077 || within 5079 5084 m || m == 5269 || m == 5270 || m == 5289 || m == 5290 ||
    m == 5298 || within 5366 5371 m || m == 5618 || within 5620 5623 m || within 5893 5896 m ||
    m == 5903 || m == 6154 || m == 6160 || m == 6417

end ExecutionMode

namespace Decoration

def specId : UInt32 := 1
def bufferBlock : UInt32 := 3
def rowMajor : UInt32 := 4
def columnMajor : UInt32 := 5
def arrayStride : UInt32 := 6
def matrixStride : UInt32 := 7
def nonWritable : UInt32 := 24
def nonReadable : UInt32 := 25
def binding : UInt32 := 33
def descriptorSet : UInt32 := 34
def offset : UInt32 := 35
def inputAttachmentIndex : UInt32 := 43

def isKnown (d : UInt32) : Bool :=
  within 0 11 d || within 13 47 d || d == 4469 || d == 4470 || d == 4487 || d == 4488 ||
    d == 4999 || d == 5019 || d == 5020 || d == 5078 || d == 5091 || d == 5248 || d == 5250 ||
    d == 5252 || d == 5256 || within 5271 5273 d || d == 5285 || d == 5300 || d == 5355 ||
    d == 5356 || d == 5386 || within 5398 5401 d || d == 5599 || d == 5602 || d == 5607 ||
    d == 5608 || within 5624 5628 d || within 5634 5636 d || d == 5822 || d == 5823 ||
    within 5825 5836 d || within 5899 5902 d || d == 5905 || d == 5907 || d == 5909 ||
    d == 5914 || d == 5915 || d == 5917 || d == 5918 || d == 5919 || d == 5921 || d == 5944 ||
    d == 6080 || d == 6085 || d == 6087 || d == 6140 || d == 6147 || d == 6148 || d == 6168 ||
    d == 6170 || d == 6172 || d == 6173 || within 6175 6183 d || d == 6442 || d == 6443

end Decoration

namespace Image

def bufferDim : UInt32 := 5

def attachmentDim : UInt32 := 6

def tileDim : UInt32 := 4173

def isKnownDim (d : UInt32) : Bool := d ≤ attachmentDim || d == tileDim

def lastFormat : UInt32 := 41

end Image

end ShaderBuild.Spirv
