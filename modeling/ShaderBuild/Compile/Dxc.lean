import ShaderBuild.Compile.Config
import ShaderBuild.Compile.Descriptor

namespace ShaderBuild

inductive DxcTarget
  | dxil | spirv
deriving DecidableEq, Repr, Inhabited

/-- Profile of a stage; root signatures have none for SPIR-V. -/
def profile (stage : Stage) (target : DxcTarget) : Except Error String :=
  match stage with
  | .vertex => .ok "vs_6_0"
  | .pixel => .ok "ps_6_0"
  | .hull => .ok "hs_6_0"
  | .domain => .ok "ds_6_0"
  | .geometry => .ok "gs_6_0"
  | .compute => .ok "cs_6_0"
  | .rootSignature =>
    match target with
    | .dxil => .ok "rootsig_1_1"
    | .spirv => refuse ⟨.compilation, .dxc, "stage RootSignature has no SPIR-V profile"⟩

/-- Arguments for a compilation: entry point, profile, output, target, defines, include directories
and the input last. -/
def commandLine (config : Config) (d : Descriptor) (target : DxcTarget) :
    Except Error (List String) := do
  let p ← profile d.stage target
  let spirv := if target = .spirv then ["-spirv", "-fspv-target-env=vulkan1.1"] else []
  return ["-E", d.entryPoint, "-T", p, "-Fo", d.output] ++ spirv ++
    d.defines.flatMap (fun x => ["-D", Text.trim x]) ++
    config.includeDirs.flatMap (fun x => ["-I", x]) ++ [d.input]

inductive Backend
  | dxc (target : DxcTarget)
  | glslang
deriving DecidableEq, Repr, Inhabited

namespace Backend

/-- D3D12 needs the external compiler; SPIR-V comes from the configured backend. -/
def forApi (config : Config) : Api → Backend
  | .vulkan =>
    match config.backend with
    | .dxc => dxc .spirv
    | .glslang => glslang
  | .d3d12 => dxc .dxil

def name : Backend → String
  | dxc .dxil => "dxc (DXIL)"
  | dxc .spirv => "dxc (SPIR-V)"
  | glslang => "glslang (SPIR-V)"

def producesSpirv : Backend → Bool
  | dxc .dxil => false
  | _ => true

end Backend

end ShaderBuild
