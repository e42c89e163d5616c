import ShaderHeader.Header
import ShaderHeader.Release.FileTree

/-!
# Releasing a header

A finished header is first written to a staging file beside its output and then moved there, so
that the output is never seen half written. Whatever fails, the staging file is gone at the end and
the output is as it was.
-/

namespace ShaderHeader

/-- Puts a draft in its place. Which name the staging file has is not for the draft to say: unless
one is given, it is one that is not in use. A failure is reported against the shader file, whose
path is given. -/
def Draft.commit (d : Draft) (t : FileTree) (path output : String)
    (staging : String := t.freshName output) : FileTree × Except Failure Unit :=
  match t.stagingDirectory? output with
  | .error refusal => (t, .error ⟨path, 0, .notOpened output refusal⟩)
  | .ok directory  =>
    let staged := directory ++ [staging]
    let u := t.put staged (.file d.text)
    match u.target? output with
    | .error refusal => (u.remove staged, .error ⟨path, 0, .notReplaced output refusal⟩)
    | .ok target     => (u.move staged target, .ok ())

/-- What is known of a header once it is in its place. -/
structure Release where
  output : String
  bytes : Nat
  warnings : List Warning
  deriving DecidableEq

/-- Makes a header and puts it in its place, by way of a staging file. -/
def Release.build (f : ShaderFile) (cs : Compilations) (o : Options) (t : FileTree)
    (staging : String := t.freshName o.output) : FileTree × Except Failure Release :=
  match Header.make? f cs o with
  | .error failure => (t, .error failure)
  | .ok header     =>
    match header.draft.commit t f.path o.output staging with
    | (u, .error failure) => (u, .error failure)
    | (u, .ok ())         => (u, .ok ⟨o.output, header.draft.size, header.warnings⟩)

end ShaderHeader
