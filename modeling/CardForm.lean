import CardForm.Json.Writer
import CardForm.Template.Session
import CardForm.Proofs.Flow.Places
import CardForm.Proofs.Flow.LaidOut
import CardForm.Proofs.Flow.Adding
import CardForm.Proofs.Flow.Canonical
import CardForm.Proofs.Flow.Rebuilt
import CardForm.Proofs.Flow.Chain
import CardForm.Proofs.Flow.Dependence
import CardForm.Proofs.Flow.Renewed
import CardForm.Proofs.Flow.Reordered
import CardForm.Proofs.Flow.Distances
import CardForm.Proofs.Flow.PipingKeys
import CardForm.Proofs.Flow.UpToDate
import CardForm.Proofs.Service.Client
import CardForm.Proofs.Template.Markers
import CardForm.Proofs.Written.RoundTrip
