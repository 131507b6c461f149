import CustomProperties.Entries
import CustomProperties.Scan.Basic
import CustomProperties.Sha256
import CustomProperties.Text.Utf8

/-!
# Remembered scans

A cache keeps the declarations of a scan under the digests of the source and the configuration, so
that the same source under the same configuration is scanned once.  A text's digest is the SHA-256
of its bytes, surrogates included.  A configuration's digest is that of its fields with bars between
them.
-/

namespace CustomProperties

namespace Digest

def ofText (t : Text) : Text := Sha256.digest (Utf8.encode t)

/-- The digest of a text up to a signed index, or the whole digest. -/
def shortened (t : Text) (stop : Option Int) : Text :=
  match stop with
  | some stop => (ofText t).upTo stop
  | none => ofText t

def switchWord (b : Bool) : Text := if b then "True" else "False"

def configText (config : Config) : Text :=
  Text.joinWith "|"
    [config.fallbackSelector, switchWord config.skipComments, switchWord config.keepStrings]

def ofConfig (config : Config) : Text := ofText (configText config)

end Digest

/-- Declarations under the digests of their source and configuration. -/
structure ScanCache where
  entries : Entries (Text × Text) (List Declaration) := []

namespace ScanCache

def get? (cache : ScanCache) (content config : Text) : Option (List Declaration) :=
  cache.entries.get? (content, config)

def put (cache : ScanCache) (content config : Text) (ds : List Declaration) : ScanCache :=
  ⟨cache.entries.put (content, config) ds⟩

def size (cache : ScanCache) : Nat := cache.entries.length

structure Result where
  declarations : List Declaration
  log : List Log.Record
  cache : ScanCache

def hitRecord (file : Option Text) : Log.Record :=
  ⟨Log.program, "Scan cache hit for " ++ Log.sourceName file⟩

/-- The declarations of a source, from the cache if they are there, and else put into it. -/
def scan (cache : ScanCache) (config : Config) (source : Text) (file : Option Text) : Result :=
  let content := Digest.ofText source
  let settings := Digest.ofConfig config
  match cache.get? content settings with
  | some ds => ⟨ds, [hitRecord file], cache⟩
  | none =>
    let trace := Scan.trace config source
    ⟨trace.declarations, trace.log file, cache.put content settings trace.declarations⟩

end ScanCache

end CustomProperties
