import SessionBroker.Cluster.Node
import SessionBroker.Error
import SessionBroker.Text.Search

/-!
# Pointing a url at a node

A connection url is retargeted by replacing what stands between its first `//` and its
query string. The two places are searched for independently of each other.
-/

namespace SessionBroker

/-- `jdbc:mysql://127.0.0.1:3306/demo?useSSL=false` pointed at the node `10.0.0.1@3307` for the
schema `logic` is `jdbc:mysql://10.0.0.1:3307/logic?useSSL=false`. -/
def retarget (node : NodeIdentity) (schema url : String) : Except Error String :=
  match Text.splitAtFirst? ['/', '/'] url.toList with
  | none => .error (.configuration ("Invalid url '" ++ url ++ "'"))
  | some (scheme, _) =>
    let query := ((Text.splitAtFirst? ['?'] url.toList).map Prod.snd).getD []
    .ok (String.ofList scheme ++ "//" ++ node.address ++ ":" ++ node.sign ++ "/" ++ schema ++
      String.ofList query)

end SessionBroker
