import BatchAxpby.Text.Utf8

/-! # Build instructions

What a build prints about the accelerator library: it is linked only when the accelerator
feature is on, with an extra search directory if one is given.
-/

namespace BatchAxpby

/-- The environment of a build. A variable that is set may be empty. -/
structure BuildEnvironment where
  feature : Option (List UInt8)
  libraryDir : Option (List UInt8)

namespace BuildEnvironment

def searchLine (dir : List UInt8) : String :=
  "cargo:rustc-link-search=native=" ++ String.ofList (Utf8.lossy dir)

def lines (env : BuildEnvironment) : List String :=
  (if env.feature.isSome then
    (env.libraryDir.map searchLine).toList ++ ["cargo:rustc-link-lib=OpenCL"]
  else []) ++
  ["cargo:rerun-if-env-changed=OPENCL_LIB_DIR", "cargo:rerun-if-changed=src/gpu/kernels.cl"]

def output (env : BuildEnvironment) : String :=
  String.join (env.lines.map (· ++ "\n"))

end BuildEnvironment

end BatchAxpby
