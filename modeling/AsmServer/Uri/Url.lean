import AsmServer.Uri.Basic
import AsmServer.Url.Basic

/-!
# URLs of documents

The editor names documents by URLs, which unlike document keys must start with a
scheme, and answers carry URLs too. A canonical file URI is a URL as it stands; any
other is spelled as a URL must be, or refused.
-/

namespace AsmServer

namespace Uri

/-- The URI that a URL of the editor names. -/
def ofUrl? (url : Text) : Option Uri := (Url.read? url).map fun u => ofText u.text

/-- The URL of a document. -/
def toUrl (uri : Uri) : Except UriError Text :=
  if uri.isFile then .ok uri.text
  else
    match Url.read? uri.text with
    | some url => .ok url.text
    | none => .error (.invalid uri)

/-- The URL of a document that has one. -/
def url? (uri : Uri) : Option Text := uri.toUrl.toOption

end Uri

end AsmServer
