import ItalyTrip.Filenames
import ItalyTrip.Lock

namespace ItalyTrip

namespace Photos

open Calls

/-- One hour. -/
def presignTTL : Int := 3600000000000

def listFailed : Response := writeErrorFromString 500 "failed to list photos"

def photoResponse (row : Photo) (url thumbURL : SignedURL) : PhotoResponse :=
  ⟨uuidString row.id, row.takenAt, row.width, row.height, url, thumbURL⟩

def signPhotos : List Photo → Handler (List PhotoResponse)
  | [] => return []
  | row :: rows => do
    let signed ← call (.presignGet row.storageKey presignTTL)
    let url ← orThrow signed fun _ => writeErrorFromString 502 "failed to sign photo url"
    let thumbSigned ← call (.presignGet row.thumbKey presignTTL)
    let thumbURL ← orThrow thumbSigned fun _ => writeErrorFromString 502 "failed to sign thumbnail url"
    let out ← signPhotos rows
    return photoResponse row url thumbURL :: out

def list : Handler Response := do
  let event ← requireUnlocked
  let listed ← call (.query (.listPhotosByEvent event.id))
  let rows ← orThrow listed fun _ => listFailed
  let out ← signPhotos rows
  return writeJSON 200 (rows.map Photo.takenAt) (.album out)

/-- The archive ends at the first photo that cannot be opened or read; what was read of that photo
stays in its entry. -/
def archive : Names → List Photo → Handler (List (String × Bytes))
  | _, [] => return []
  | names, row :: rows => do
    let opened ← call (.openObject row.storageKey)
    match opened with
    | .error _ => return []
    | .ok object =>
      let (name, names) := uniqueName names (downloadFilename row.takenAt)
      if object.complete then
        let entries ← archive names rows
        return (name, object.body) :: entries
      else return [(name, object.body)]

def downloadAll (app : Application) : Handler Response := do
  let event ← requireUnlocked
  let listed ← call (.query (.listPhotosByEvent event.id))
  let rows ← orThrow listed fun _ => listFailed
  let entries ← archive [] rows
  return ⟨200, .zip (contentDisposition app.toPackages (zipFilename event.name)) entries, none⟩

/-- The photo is looked up by its id alone, whatever event it belongs to. -/
def original (app : Application) (param : String) : Handler Response := do
  let _ ← requireUnlocked
  let id ← orThrow (app.parseUUID param) fun _ =>
    writeErrorFromString 400 "photo id must be a UUID"
  let found ← call (.query (.findPhotoById id))
  let row ← orThrow found fun
    | .noRows => writeErrorFromString 404 "photo not found"
    | _ => writeErrorFromString 500 "failed to load photo"
  let opened ← call (.openObject row.storageKey)
  let object ← orThrow opened fun _ => writeErrorFromString 502 "failed to read photo"
  let contentType := if object.contentType = "" then "image/jpeg" else object.contentType
  let disposition := contentDisposition app.toPackages (downloadFilename row.takenAt)
  return ⟨200, .attachment disposition contentType object.contentLength object.body, none⟩

end Photos

end ItalyTrip
