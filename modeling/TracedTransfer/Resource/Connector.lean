/-
The transport of a name, chosen by its scheme.
-/
import TracedTransfer.Resource.File
import TracedTransfer.Resource.Instrumented
import TracedTransfer.Resource.Web

namespace TracedTransfer.Resource

/-- A resource of one of the transports. -/
inductive AnyResource where
  | file (r : FileResource)
  | web (r : WebResource)
deriving DecidableEq, Repr

namespace AnyResource

/-- What the transport provides. -/
def source : AnyResource → ContentSource
  | .file r => r.source
  | .web r => r.source

end AnyResource

/-- Opens the resource of a name. -/
def connect (options : Http.Options) (n : Name) : Except Resource.Error AnyResource :=
  if n.url.scheme = "file".toList then (FileResource.ofName n).map .file
  else if n.url.scheme = "http".toList || n.url.scheme = "https".toList then
    (WebResource.ofName n options).map .web
  else .error (.schemeOf n)

/-- Opens the resource of a name, with its reads in scopes. -/
def connectInstrumented (options : Http.Options) (n : Name) (r : Operation.Runner) :
    Except Resource.Error Resource :=
  (connect options n).map fun a => instrumented a.source.resource n r

end TracedTransfer.Resource
